import ScriptTree.Proofs.Parse.Statement
import ScriptTree.Proofs.Progress.Turns

/-!
# Every turn reads a token

A turn that asks for another one has read a token: an item of a list, an
operator, a name, or just the token that is passed over. The loop over the
statements of a list is the exception: a parse that has ended takes
nothing of a statement any more, but then the next turn leaves the loop.

What has been found so far is of no importance to any of this, so all of
it holds whatever a loop has been entered with.
-/

namespace ScriptTree

variable {root ctx : Context} {s : State} {α : Type}
  {P : Expression → Prop} {g : Grammar}

namespace Parse

open ScriptTree.Action

/-- What is read behind a place stays read. -/
theorem Ensures.later {x : Parse α} {b : Nat} (hpast : b < s.consumedTo)
    (hx : Ensures root x ctx s (fun _ _ => True)) :
    Ensures root x ctx s (fun _ t => b < t.consumedTo) :=
  hx.mono (fun _ _ hst _ => Nat.lt_of_lt_of_le hpast hst.consumedTo_le)

/-! ## What is read in a turn -/

section Reading

variable (hg : g.Sound root P)

include hg

/-- What an operator makes of the operand before it takes steps only,
whatever that operand is. -/
theorem applyAfter_runs (left : Expression) (token : Token) :
    Ensures root (applyAfter g left token) ctx s (fun _ _ => True) := by
  unfold applyAfter
  dsimp only
  split
  · exact .pure trivial
  · exact .pure trivial
  · refine hg.arguments.bind fun _ t _ _ => ?_
    exact .look (t.spanFrom left.span.start) rfl (.pure trivial)
  · exact (propertyName_ensures P).bind fun _ _ _ _ => .pure trivial
  · refine (hg.bracketed _ _).bind fun _ t _ _ => ?_
    refine (expectPunctuator_ensures .rBracket).discard.bind
      fun _ u _ _ => ?_
    exact .look (u.spanFrom left.span.start) rfl (.pure trivial)
  · exact .throw _

theorem applyMark_runs (left : Expression) (token : Token) (p : Punctuator)
    (right : Precedence) :
    Ensures root (applyMark g left token p right) ctx s
      (fun _ _ => True) := by
  have hassign (mk : Expression → Expression → Expression) :
      Ensures root (do
        let target ← liftM (assignmentTarget left)
        let value ← g.expression right
        pure (mk target value)) ctx s (fun _ _ => True) :=
    (Ensures.lift (assignmentTarget_ensures hg left)).bind
      fun _ _ _ _ => (hg.expression right).bind
        fun _ _ _ _ => .pure trivial
  unfold applyMark
  dsimp only
  split
  · exact (hg.expression right).bind fun _ _ _ _ => .pure trivial
  · exact hassign (fun target value => .assignment target value _)
  · refine hg.consequent.bind fun _ _ _ _ => ?_
    refine (expectPunctuator_ensures .colon).discard.bind
      fun _ _ _ _ => ?_
    exact (hg.expression right).bind fun _ _ _ _ => .pure trivial
  · split
    · exact hassign (fun target value => .compoundAssignment _ target value _)
    · split
      · exact (hg.expression right).bind fun _ _ _ _ => .pure trivial
      · exact .throw _

/-- An operator that is folded on is read. -/
theorem applyOperator_past (left : Expression) (info : OperatorInfo)
    (heof : s.current.isEof = false) :
    Ensures root (applyOperator g left info) ctx s
      (fun _ t => s.here < t.consumedTo) := by
  refine (Ensures.lift (advance_ensures heof)).bind
    fun token t _ htook => .later htook.past ?_
  refine .ite (fun _ => applyAfter_runs hg left token) (fun _ => ?_)
  split
  · exact applyMark_runs hg left token _ _
  · exact (hg.expression _).bind fun _ _ _ _ => .pure trivial
  · exact (hg.expression _).bind fun _ _ _ _ => .pure trivial

/-- A clause of a switch begins with a word. -/
theorem switchCase_past :
    Ensures root (switchCase g) ctx s
      (fun _ t => s.here < t.consumedTo) := by
  refine .look s.here rfl ?_
  refine (caseTest_ensures hg).bind fun _ t _ htest =>
    .later htest.1 ?_
  refine (expectPunctuator_ensures .colon).discard.bind
    fun _ u _ _ => ?_
  refine (Ensures.lift (statementList_ensures hg .switchCase)).bind
    fun xs v _ _ => ?_
  exact .look (v.spanFrom s.here) rfl (.pure trivial)

end Reading

/-- The loop over the statements is left at the end of the list, and by a
parse that has ended. -/
theorem statementsTurn_of_end (found : List Statement)
    (h : (s.aborted || s.atListEnd ctx) = true) :
    statementsTurn g found ctx s = (.done found.reverse, s) := by
  show (ite _ _ _ : Action _) ctx s = _
  rw [if_pos h]
  rfl

/-! ## The loops -/

variable (hturns : byteLength root.source < root.turns)

include hturns

theorem skipToLoop_proceeds (point : TolerantPoint) :
    (skipToLoop point).Proceeds root := by
  refine Loop.proceeds_of_reading hturns (.lift ?_)
  refine .look _ rfl (.look _ rfl ?_)
  refine .ite (fun _ => .pure .of_done) (fun heof => ?_)
  refine .ite (fun _ => .pure .of_done) (fun _ => ?_)
  refine (advance_ensures (Bool.eq_false_iff.2 heof)).discard.bind ?_
  rintro _ t _ ⟨token, htook⟩
  exact .pure (.of_past htook.past)

theorem skipStatementLoop_proceeds : skipStatementLoop.Proceeds root := by
  refine Loop.proceeds_of_reading hturns (.lift ?_)
  refine .look _ rfl (.look _ rfl ?_)
  refine .ite (fun _ => .pure .of_done) (fun hend => ?_)
  refine .ite (fun _ => .pure .of_done) (fun _ => ?_)
  rw [Bool.or_eq_true, not_or, Bool.not_eq_true, Bool.not_eq_true] at hend
  refine (advance_ensures hend.2).discard.bind ?_
  rintro _ t _ ⟨token, htook⟩
  exact .ite (fun _ => .pure .of_done) (fun _ => .pure (.of_past htook.past))

section Items

variable [Mendable α] {point : TolerantPoint} {closer : Punctuator}
  {item : Parse α} {R : α → Nat → Nat → Prop}

/-- **An item is read in every turn**, whatever separates it from the
next one. -/
theorem separatedLoop_proceeds
    (hmend : ∀ node b e, b < e → As root P .error node b e →
      R (Mendable.ofError node) b e)
    (hitem : ∀ {ctx s}, Ensures root item ctx s (State.Reads R s.here)) :
    (separatedLoop point closer item).Proceeds root := by
  refine Loop.proceeds_of_reading hturns (fun {ctx s found} => ?_)
  refine .look (s.current.isPunctuator closer) rfl
    (.ite (fun _ => .pure .of_done) (fun _ => ?_))
  refine (tolerant_ensures hmend point hitem).bind fun x t hst hx => ?_
  refine (Ensures.later hx.1 ?_).mono (fun _ _ _ => .of_past)
  refine (Ensures.lift (eat_ensures .comma)).bind fun _ u _ _ => ?_
  refine .ite (fun _ => .pure trivial) (fun _ => ?_)
  refine .look (u.current.isPunctuator closer) rfl
    (.ite (fun _ => .pure trivial) (fun _ => .ite (fun _ => ?_)
      (fun _ => ?_)))
  · exact (Ensures.lift (eat_ensures .comma).discard).bind
      fun _ _ _ _ => .pure trivial
  · refine (missingSeparator_ensures hmend point _).bind
      fun _ _ _ _ => ?_
    exact (Ensures.lift (eat_ensures .comma).discard).bind
      fun _ _ _ _ => .pure trivial

end Items

theorem specifiersLoop_proceeds {item : Parse α}
    (hitem : ∀ {ctx s}, Ensures root item ctx s
      (fun _ t => s.here < t.consumedTo)) :
    (specifiersLoop item).Proceeds root := by
  refine Loop.proceeds_of_reading hturns (fun {ctx s found} => ?_)
  refine .look (s.current.isPunctuator .rBrace) rfl
    (.ite (fun _ => .pure .of_done) (fun _ => ?_))
  refine hitem.bind fun x t _ hpast => ?_
  refine (Ensures.lift (eat_ensures .comma)).bind fun _ u htu _ => ?_
  refine .ite (fun _ => .pure (.of_past ?_)) (fun _ => .pure .of_done)
  exact Nat.lt_of_lt_of_le hpast htu.consumedTo_le

theorem importSpecifiersLoop_proceeds :
    (specifiersLoop importSpecifier).Proceeds root :=
  specifiersLoop_proceeds hturns
    ((importSpecifier_ensures (fun _ => True)).mono
      (fun _ _ _ h => h.past))

theorem exportSpecifiersLoop_proceeds :
    (specifiersLoop exportSpecifier).Proceeds root :=
  specifiersLoop_proceeds hturns
    ((exportSpecifier_ensures (fun _ => True)).mono
      (fun _ _ _ h => h.past))

theorem parameterNamesLoop_proceeds : parameterNamesLoop.Proceeds root := by
  refine Loop.proceeds_of_reading hturns (fun {ctx s found} => ?_)
  refine (identifier_ensures (fun _ => True)).bind fun id t _ hid => ?_
  refine (Ensures.lift (eat_ensures .comma)).bind fun _ u htu _ => ?_
  refine .ite (fun _ => .pure (.of_past ?_)) (fun _ => .pure .of_done)
  exact Nat.lt_of_lt_of_le hid.1 htu.consumedTo_le

variable (hg : g.Sound root P)

include hg

theorem classMethodsLoop_proceeds : (classMethodsLoop g).Proceeds root := by
  refine Loop.proceeds_of_reading hturns (fun {ctx s found} => ?_)
  refine .look s.current rfl (.ite (fun _ => .pure .of_done) (fun _ => ?_))
  refine .look s.here rfl (.of_good fun _ hs => ?_)
  refine (Ensures.lift (modifier_ensures "static")).bind
    fun isStatic t hst _ => ?_
  refine (method_ensures hg isStatic hs.isCut_here hst.here_le).bind
    fun m u _ hm => ?_
  refine (Ensures.lift (eat_ensures .semicolon).discard).bind
    fun _ v huv _ => .pure (.of_past ?_)
  exact Nat.lt_of_lt_of_le hm.1 huv.consumedTo_le

theorem bindingsLoop_proceeds : (bindingsLoop g).Proceeds root := by
  refine Loop.proceeds_of_reading hturns (fun {ctx s found} => ?_)
  refine (tolerant_ensures mend_declarator .varBinding
    (binding_ensures hg)).bind fun d t _ hd => ?_
  refine (Ensures.lift (anotherBinding_ensures _)).bind
    fun _ u htu _ => ?_
  refine .ite (fun _ => .pure (.of_past ?_)) (fun _ => .pure .of_done)
  exact Nat.lt_of_lt_of_le hd.1 htu.consumedTo_le

/-- Every clause begins with a word. -/
theorem switchCasesLoop_proceeds : (switchCasesLoop g).Proceeds root := by
  refine Loop.proceeds_of_reading hturns (fun {ctx s found} => ?_)
  refine .look (s.current.isPunctuator .rBrace) rfl
    (.ite (fun _ => .pure .of_done) (fun _ => ?_))
  exact (switchCase_past hg).bind (fun _ _ _ hpast => .pure (.of_past hpast))

/-- **An operator is read in every turn.** -/
theorem operatorLoop_proceeds (min : Precedence) :
    (operatorLoop g min).Proceeds root := by
  refine Loop.proceeds_of_reading hturns (fun {ctx s left} => ?_)
  refine .look _ (liftM_operatorAt?_run min ctx s) ?_
  cases hfound : s.operator? ctx min with
  | none => exact .pure .of_done
  | some info =>
    exact (applyOperator_past hg left info (isEof_of_operator? hfound)).bind
      (fun _ _ _ hpast => .pure (.of_past hpast))

/-- **A statement is read in every turn**, or what is there of it is
passed over, unless that turn ends the parse. -/
theorem statementsLoop_proceeds : (statementsLoop g).Proceeds root := by
  refine Loop.proceeds_of_ensures hturns (fun {ctx s found} => ?_)
  refine .lift (.look s rfl (.look (s.atListEnd ctx) rfl
    (.of_good fun _ hs => ?_)))
  refine .ite (fun _ => .pure (fun _ h => nomatch h)) (fun hend => ?_)
  have heof : s.current.isEof = false := by
    simp only [State.atListEnd, Bool.or_eq_true, not_or,
      Bool.not_eq_true] at hend
    exact hend.2.1
  refine .look s.here rfl ?_
  refine (statement_ensures hg).attempt.bind fun r t hst hr => ?_
  cases r with
  | ok x => exact .pure (fun _ _ => .inl (hr x rfl).1)
  | error error =>
    refine (abandon_ensures P error hs.isCut_here
      hst.here_eq_or_past).bind fun r u _ hr => ?_
    cases r with
    | some x => exact .pure (fun _ _ => .inl (hr.1 x rfl).1)
    | none =>
      refine .pure (fun y _ => .inr ⟨heof, ?_⟩)
      rcases hr.2 rfl (by omega) with haborted | ⟨hhere, hend⟩
      · refine ⟨haborted, y.reverse, ?_⟩
        show (Except.ok (statementsTurn g y ctx u).1,
          (statementsTurn g y ctx u).2) = _
        rw [statementsTurn_of_end y (by rw [haborted]; rfl)]
      · -- The statement would have begun at the end of the text.
        have hlt := hs.here_lt_stop heof
        have hle := (hs.current_occupies heof).2.1.stop_le
        have hlen := hst.good.here_of_eof hend
        omega

end Parse

end ScriptTree
