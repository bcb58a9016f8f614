import ScriptTree.Parse.Expression
import ScriptTree.Proofs.Account.Operand
import ScriptTree.Proofs.Parse.Expression

/-!
# Expressions and their tokens

Operators are marks and reserved words, whatever the table: their tokens
are not in the tree. What is folded onto an operand is accounted for from
where the operand began.

Something that is no target of an assignment becomes an error node, and an
error is taken down for it.
-/

namespace ScriptTree.Parse

open ScriptTree.Action State

variable {root ctx : Context} {r s : State} {g : Grammar}
  {token : Token} {left : Expression}

/-! ## Targets -/

theorem refuse_accounts {error : ParseError} (e : Expression)
    (h : error.Founded root s) :
    Action.Accounts root (refuse error e) ctx s
      (fun _ t => ¬t.Clean root) := by
  refine (reportError_accounts (by decide) (fun _ => h)).bind
    fun _ t _ hclean => ?_
  exact .look _ rfl (.pure hclean)

/-- **A target stays what it was** where nothing has gone wrong. -/
def Keeps (root : Context) (s : State) (e e' : Expression) (t : State) :
    Prop :=
  t.Clean root → e' = e ∧ t.taken = s.taken

/-- That something cannot be assigned to is founded where it stands. -/
theorem invalidAssignmentTarget_founded {e : Expression}
    (hframed : e.span.Framed root.source) :
    (ParseError.invalidAssignmentTarget e.span).Founded root s := by
  have hmessage : ¬IsMismatch "invalid assignment target" :=
    fun hm => absurd hm.head (by decide)
  exact .of_not_isMismatch hframed hmessage

/-- So is that it cannot be deleted. -/
theorem invalidDeleteTarget_founded {e : Expression}
    (hframed : e.span.Framed root.source) :
    (ParseError.invalidDeleteTarget e.span).Founded root s := by
  have hmessage : ¬IsMismatch
      "'delete' operand must be a member or subscript expression" :=
    fun hm => absurd hm.head (by decide)
  exact .of_not_isMismatch hframed hmessage

theorem assignmentTarget_accounts {e : Expression}
    (hframed : e.span.Framed root.source) :
    Action.Accounts root (assignmentTarget e) ctx s (Keeps root s e) := by
  refine .ite (fun _ => .pure (fun _ => ⟨rfl, rfl⟩)) (fun _ => ?_)
  exact (refuse_accounts e (invalidAssignmentTarget_founded hframed)).mono
    (fun _ _ _ hclean h => absurd h hclean)

theorem deleteTarget_accounts {e : Expression}
    (hframed : e.span.Framed root.source) :
    Action.Accounts root (deleteTarget e) ctx s (Keeps root s e) := by
  refine .ite (fun _ => .pure (fun _ => ⟨rfl, rfl⟩)) (fun _ => ?_)
  exact (refuse_accounts e (invalidDeleteTarget_founded hframed)).mono
    (fun _ _ _ hclean h => absurd h hclean)

/-- What was gathered for a target is what was gathered for the expression
it was. -/
theorem Keeps.gathers {e e' : Expression} {t : State}
    (h : Keeps root s e e' t) (hst : Acts root s t)
    (he : r.Gathers root [.expression e] s) :
    r.Gathers root [.expression e'] t := by
  refine ⟨he.acts.trans hst, fun hclean => ?_⟩
  obtain ⟨rfl, htaken⟩ := h hclean
  rw [htaken]
  exact he.spent (hst.clean hclean)

/-! ## Operators before an operand -/

/-- **A sign before an operand** has been read before the operand. -/
theorem applyBefore_accounts {argument : Expression}
    (htoken : token ∈ s.known)
    (hframed : argument.span.Framed root.source)
    (hargument : r.Gathers root [.expression argument] s) :
    Accounts root (applyBefore token argument) ctx s
      (fun e t => r.Gathers root [.expression e] t) := by
  unfold applyBefore
  dsimp only
  split
  case h_3 =>
    refine (Accounts.lift (deleteTarget_accounts hframed)).bind
      fun e t hst he => .pure (.wrap ?_ rfl)
    exact he.gathers hst hargument
  case h_12 =>
    exact .throw (fun hs => ParseError.ofToken_founded hs htoken _)
  all_goals exact .pure (.wrap hargument rfl)

/-- An expression that has been read lies in the text. -/
theorem framed_of_reads {b : Nat} {e : Expression} {t : State}
    {P : Expression → Prop}
    (h : State.Reads (As root P .expression) b e t) :
    e.span.Framed root.source := by
  have hspan : e.span = ⟨b, t.consumedTo⟩ := h.2.spans
  rw [hspan]
  exact h.2.fits.framed

variable (hg : g.Gathers root)

include hg

theorem operand_accounts :
    Accounts root (operand g) ctx s
      (fun e t => s.Gathers root [.expression e] t) := by
  refine .look s.current rfl (.look ctx rfl ?_)
  split
  · rename_i info hinfo
    refine .ite (fun _ => ?_) (fun _ => primary_accounts hg)
    have hsilent : s.current.IsSilent := Token.isSilent_of_find? hinfo
    refine (Accounts.lift ((advance_accounts hsilent.isEof_eq_false).mono
      (fun _ _ _ h => h.2)).discard).bind fun _ t hst htaken => ?_
    refine ((hg.expression _).and_ensures (hg.sound.expression _)).bind
      fun argument u htu hargument => ?_
    have hpassed : s.Gathers root [] t :=
      .of_token hst htaken (.silent hsilent .nil)
    have hknown : s.current ∈ u.known := by
      refine mem_known_of_taken (htu.taken_subset ?_)
      rw [htaken]
      exact List.mem_cons_self
    exact applyBefore_accounts hknown (framed_of_reads hargument.2)
      (hpassed.trans hargument.1)
  · exact primary_accounts hg

/-! ## Operators behind an operand -/

theorem callArguments_accounts :
    Accounts root (callArguments g) ctx s
      (fun es t => s.Gathers root (es.map .expression) t) := by
  refine (separated_accounts (fun _ => assignment_accounts hg) _ _).bind
    fun es t _ hes => ?_
  refine (expectPunctuator_accounts .rParen).discard.bind
    fun _ u _ hu => .pure ?_
  rw [← List.map_eq_flatMap] at hes
  exact hes.later hu

theorem applyAfter_accounts (htoken : token ∈ s.known)
    (hleft : r.Gathers root [.expression left] s) :
    Accounts root (applyAfter g left token) ctx s
      (fun e t => r.Gathers root [.expression e] t) := by
  unfold applyAfter
  dsimp only
  split
  · exact .pure (.wrap hleft rfl)
  · exact .pure (.wrap hleft rfl)
  · refine hg.arguments.bind fun arguments t _ harguments => ?_
    refine .look (t.spanFrom _) rfl (.pure (.wrap ?_ rfl))
    exact hleft.trans harguments
  · refine propertyName_accounts.bind fun property t _ hproperty => ?_
    exact .pure (.wrap (hleft.trans hproperty) rfl)
  · refine (hg.bracketed _ _).bind fun index t _ hindex => ?_
    refine (expectPunctuator_accounts .rBracket).discard.bind
      fun _ u _ hu => ?_
    refine .look (u.spanFrom _) rfl (.pure (.wrap ?_ rfl))
    exact (hleft.trans hindex).later hu
  · exact .throw (fun hs => ParseError.ofToken_founded hs htoken _)

theorem binaryOf_accounts (operator : BinaryOperator) (right : Precedence)
    (hleft : r.Gathers root [.expression left] s) :
    Accounts root (do
      let second ← g.expression right
      pure (binaryOf operator left second)) ctx s
      (fun e t => r.Gathers root [.expression e] t) :=
  (hg.expression right).bind fun _ _ _ hsecond =>
    .pure (.wrap (hleft.trans hsecond) rfl)

/-- **An assignment of any kind.** -/
theorem assign_accounts (mk : Expression → Expression → Span → Expression)
    (hmk : ∀ target value span,
      (Node.expression (mk target value span)).children
          = [.expression target, .expression value]
        ∧ (Node.expression (mk target value span)).leaf? = none)
    (right : Precedence) (hframed : left.span.Framed root.source)
    (hleft : r.Gathers root [.expression left] s) :
    Accounts root (do
      let target ← liftM (assignmentTarget left)
      let value ← g.expression right
      pure (mk target value ⟨left.span.start, value.span.stop⟩)) ctx s
      (fun e t => r.Gathers root [.expression e] t) := by
  refine (Accounts.lift (assignmentTarget_accounts hframed)).bind
    fun target t hst htarget => ?_
  refine (hg.expression right).bind fun value u _ hvalue => .pure ?_
  obtain ⟨hchildren, hleaf⟩ :=
    hmk target value ⟨left.span.start, value.span.stop⟩
  refine .wrap ?_ hleaf
  rw [hchildren]
  exact (htarget.gathers hst hleft).trans hvalue

theorem applyMark_accounts (p : Punctuator) (right : Precedence)
    (htoken : token ∈ s.known) (hframed : left.span.Framed root.source)
    (hleft : r.Gathers root [.expression left] s) :
    Accounts root (applyMark g left token p right) ctx s
      (fun e t => r.Gathers root [.expression e] t) := by
  unfold applyMark
  dsimp only
  split
  · refine (hg.expression right).bind fun second t _ hsecond => ?_
    exact .pure (.wrap (hleft.trans hsecond) rfl)
  · exact assign_accounts hg .assignment (fun _ _ _ => ⟨rfl, rfl⟩) right
      hframed hleft
  · refine hg.consequent.bind fun consequent t _ hconsequent => ?_
    refine (expectPunctuator_accounts .colon).discard.bind
      fun _ u _ hu => ?_
    refine (hg.expression right).bind fun alternate v _ halternate => ?_
    refine .pure (.wrap ?_ rfl)
    exact ((hleft.trans hconsequent).later hu).trans halternate
  · split
    · exact assign_accounts hg (.compoundAssignment _)
        (fun _ _ _ => ⟨rfl, rfl⟩) right hframed hleft
    · split
      · exact binaryOf_accounts hg _ right hleft
      · exact .throw (fun hs => ParseError.ofToken_founded hs htoken _)

/-- **An operator folded onto what was read before it.** -/
theorem applyOperator_accounts (info : OperatorInfo)
    (hsilent : s.current.IsSilent)
    (hframed : left.span.Framed root.source)
    (hleft : r.Gathers root [.expression left] s) :
    Accounts root (applyOperator g left info) ctx s
      (fun e t => r.Gathers root [.expression e] t) := by
  refine (Accounts.lift (skip_accounts hsilent)).bind
    fun token t _ ⟨htoken, ht⟩ => ?_
  have hleft := hleft.later ht
  refine .ite (fun _ => ?_) (fun _ => ?_)
  · exact applyAfter_accounts hg htoken hleft
  split
  · exact applyMark_accounts hg _ _ htoken hframed hleft
  · exact binaryOf_accounts hg _ _ hleft
  · exact binaryOf_accounts hg _ _ hleft

/-! ## The fold -/

omit hg in
/-- An operator between operands is no token of a tree. -/
theorem isSilent_of_operator? {min : Precedence} {info : OperatorInfo}
    (h : s.operator? ctx min = some info) : s.current.IsSilent := by
  simp only [State.operator?, OperatorTable.afterOperand?] at h
  split at h
  · exact nomatch h
  · split at h
    · exact nomatch h
    · rcases Option.or_eq_some_iff.1 (Option.filter_eq_some_iff.1 h).1 with
        h | ⟨_, h⟩
      · exact Token.isSilent_of_find? h
      · exact Token.isSilent_of_find? h

/-- **The fold** gathers from where its operand began. -/
theorem foldOperators_accounts (min : Precedence) (turns : Nat) {b : Nat}
    (hreads : State.Reads (As root (fun _ => True) .expression) b left s)
    (hleft : r.Gathers root [.expression left] s) :
    Accounts root (foldOperators g min turns left) ctx s
      (fun e t => r.Gathers root [.expression e] t) := by
  induction turns generalizing left s with
  | zero => exact .pure hleft
  | succ turns ih =>
    refine .look _ (liftM_operatorAt?_run min ctx s) ?_
    cases hfound : s.operator? ctx min with
    | none => exact .pure hleft
    | some info =>
      refine ((applyOperator_accounts hg info (isSilent_of_operator? hfound)
        (framed_of_reads hreads) hleft).and_ensures
        (applyOperator_ensures hg.sound info (isEof_of_operator? hfound)
          hreads)).bind fun e t _ he => ?_
      exact ih (he.2.2 trivial) he.1

/-- **An expression** accounts for its operands. -/
theorem expressionFrom_accounts (min : Precedence) :
    Accounts root (expressionFrom g min) ctx s
      (fun e t => s.Gathers root [.expression e] t) := by
  refine ((operand_accounts hg).and_ensures
    (operand_ensures hg.sound)).bind fun e t _ he => ?_
  exact .look ctx rfl (foldOperators_accounts hg min _ (he.2 trivial) he.1)

end ScriptTree.Parse
