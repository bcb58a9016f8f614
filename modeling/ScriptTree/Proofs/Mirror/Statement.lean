import ScriptTree.Parse.Levels
import ScriptTree.Proofs.Mirror.Loop
import ScriptTree.Proofs.Mirror.Module

/-!
# All productions in both texts

The remaining statements, and then the grammar as a whole: a grammar of
any number of levels is mirrored, by induction on the levels
(`Grammar.levels_mirrored`).

A word that may stand alone, such as `return`, takes a value if there is
one before the end of the statement. Whether this is so is asked before a
token is read, and so it is asked once more whether the part goes on: if
it does, both texts go on in the same way, and if it does not, the other
text has ended and there is no value.
-/

namespace ScriptTree

variable {M : Mirror} {H B : Prop} {ctx : Context} {s s' t t' : State}

/-! ## The ends of statements -/

namespace Mirror

open ScriptTree.Parse

theorem Inside.atStatementEnd_eq (h : M.Inside s s') :
    (atStatementEnd (M.reflect ctx) s').1 = (atStatementEnd ctx s).1 := by
  show (s'.current.isPunctuator .semicolon || s'.newlineBefore
    || s'.atListEnd (M.reflect ctx)) = (s.current.isPunctuator .semicolon
    || s.newlineBefore || s.atListEnd ctx)
  rw [h.asks (Token.asks_punctuator .semicolon), h.newlineBefore_eq,
    h.atListEnd_eq]

/-- Where a statement ends in the first text it ends in the other one. -/
theorem Along.atStatementEnd (h : M.Along s s')
    (hend : (atStatementEnd ctx s).1 = true) :
    (atStatementEnd (M.reflect ctx) s').1 = true := by
  rcases h.at_ with hinside | hover
  · rwa [hinside.atStatementEnd_eq]
  · exact Bool.or_eq_true_iff.2 (.inr (Bool.or_eq_true_iff.2
      (.inl hover.isEof)))

end Mirror

variable [M.Lawful]

namespace Parse

open ScriptTree.Action Mirror

variable {g : Grammar} (hg : g.Mirrored M)

include hg

/-! ## Blocks -/

theorem blockFrom_alike :
    Alike M M.Fits M.Start (blockFrom g) (blockFrom g) := by
  intro H ctx s s' h
  refine (expectPunctuator_mirrors (by decide) h).seq
    (fun opening t t' => ?_)
  refine (statementList_alike hg .brace And.right).bind
    (fun body u u' => ?_)
  refine (expectPunctuator_mirrors (by decide)
    (fun h => h.2.start)).discard.seq (fun _ v v' => ?_)
  refine .span (fun h => h.2.consumedTo_eq) (.pure And.right (fun h => ?_) ?_)
  · exact ⟨_, List.mem_singleton_self _, (h.resolve_left id).node
      (fun c hc => by simpa [Node.children] using hc)⟩
  · show _ = Block.mk (moveStatements _ _) _
    rw [moveStatements_eq]
    rfl

/-! ## Exceptions -/

theorem catchParameter?_alike :
    Alike M M.Fits M.Along (catchParameter? g) (catchParameter? g) := by
  intro H ctx s s' h
  refine (eat_mirrors (by decide) h).seq (fun _ t t' => ?_)
  refine .ite (fun _ => Iff.rfl) (fun _ => ?_)
    (fun _ => .pure And.right False.elim rfl)
  refine (hg.catchParameter (fun h => h.2.start)).seq (fun param u u' => ?_)
  exact (expectPunctuator_mirrors (by decide)
    (fun h => h.2.start)).discard.seq
    (fun _ _ _ => .pure And.right False.elim rfl)

theorem catchClause?_alike :
    Alike M M.Fits M.Along (catchClause? g) (catchClause? g) := by
  intro H ctx s s' h
  refine .look (s.current.isKeyword .kwCatch)
    (s'.current.isKeyword .kwCatch) rfl rfl ?_
  refine .test (Token.asks_keyword .kwCatch) (fun hH => (h hH).start)
    (fun hword => ?_) (fun hword => ?_) (fun _ => .pure h False.elim rfl)
  · refine Ensures.past ((Ensures.lift (advance_ensures
      (isEof_of_isKeyword hword))).mono (fun _ _ _ htook => htook.past))
      (fun token t => ?_)
    refine (catchParameter?_ensures hg.sound).bind (fun _ u _ _ => ?_)
    exact hg.sound.block.bind (fun _ v _ _ =>
      .look (v.spanFrom token.span.start) rfl (.pure trivial))
  refine (word_mirrors And.right (of_decide_eq_true hword)).seq
    (fun token t t' => ?_)
  refine (catchParameter?_alike hg And.right).seq (fun param? u u' => ?_)
  refine (hg.block (fun h => h.2.start)).bind (fun body v v' => ?_)
  refine .span (fun h => h.2.consumedTo_eq) (.pure And.right (fun h => ?_) rfl)
  exact marked_some.2 ((h.resolve_left id).sub
    (fun n hn => List.mem_append_right _ hn))

theorem finallyBlock?_alike :
    Alike M M.Fits M.Along (finallyBlock? g) (finallyBlock? g) := by
  intro H ctx s s' h
  refine .look (s.current.isKeyword .kwFinally)
    (s'.current.isKeyword .kwFinally) rfl rfl ?_
  refine .test (Token.asks_keyword .kwFinally) (fun hH => (h hH).start)
    (fun hword => ?_) (fun hword => ?_) (fun _ => .pure h False.elim rfl)
  · exact (advance_past (isEof_of_isKeyword hword)).past
      (fun _ _ => hg.sound.block.bind (fun _ _ _ _ => .pure trivial))
  · refine (word_mirrors And.right
      (of_decide_eq_true hword)).discard.seq (fun _ t t' => ?_)
    exact (hg.block (fun h => h.2.start)).bind (fun b _ _ =>
      .pure And.right (fun h => marked_some.2 (h.resolve_left id)) rfl)

/-- **A block with what is done about exceptions** is the same in both
texts. -/
theorem tryStatement_mirrors {k : Keyword} (h : H → M.Fresh s s')
    (hkind : s.current.kind = .keyword k) :
    Mirrors M M.Fits H False M.move (tryStatement g) (tryStatement g) ctx s
      s' M.Along := by
  refine (word_mirrors h hkind).seq (fun token t t' => ?_)
  refine (hg.block (fun h => h.2.start)).bind (fun body u u' => ?_)
  refine (catchClause?_alike hg And.right).bind (fun handler? v v' => ?_)
  refine (finallyBlock?_alike hg And.right).bind (fun finalizer? w w' => ?_)
  refine .span (fun h => h.2.consumedTo_eq) (.pure And.right ?_ ?_)
  · rintro (((h | h) | h) | h)
    · exact h.elim
    · exact h.statement (by simp +contextual [Statement.children])
    · cases handler? with
      | none => exact (marked_none h).elim
      | some c =>
        exact (marked_some.1 h).statement (fun n hn => List.mem_cons_of_mem _
          (List.mem_append_left _ hn))
    · exact h.statement (by simp +contextual [Statement.children])
  · show _ = Statement.tryBlock _ (moveHandler? _ _) (moveBlock? _ _) _
    rw [moveHandler?_eq, moveBlock?_eq]
    rfl

/-! ## Jumps -/

omit hg in
theorem jumpStatement_mirrors {k : Keyword} {make : Span → Statement}
    (hmake : ∀ span, M.move (make span) = make (span.move M.place))
    (h : H → M.Fresh s s') (hkind : s.current.kind = .keyword k) :
    Mirrors M M.Fits H False M.move (jumpStatement make)
      (jumpStatement make) ctx s s' M.Along := by
  refine (word_mirrors h hkind).seq (fun token t t' => ?_)
  refine (terminator_mirrors true And.right).seq (fun _ u u' => ?_)
  exact .span (fun h => h.2.consumedTo_eq)
    (.pure And.right False.elim (hmake _).symm)

theorem optionalValue_alike :
    Alike M M.Fits M.Along (optionalValue g) (optionalValue g) := by
  intro H ctx s s' h
  refine .look (atStatementEnd ctx s).1 (atStatementEnd (M.reflect ctx) s').1
    rfl rfl ?_
  cases hend : (atStatementEnd ctx s).1 with
  | true =>
    refine .congr (fun hH => ?_) (.pure h False.elim rfl)
    rw [(h hH).atStatementEnd hend]
    rfl
  | false =>
    refine .reading ((expression_ensures hg.sound).bind
      (fun _ _ _ he => .pure he.1)) (.ite (fun hH => ?_)
        (fun h => nomatch h) (fun _ => ?_))
    · rw [((h hH.1).inside hH.2).atStatementEnd_eq, hend]
    · exact (expression_alike hg (fun hH => (h hH.1).start)).bind
        (fun e _ _ => .pure And.right
          (fun h => marked_some.2 (h.resolve_left id)) rfl)

theorem valueStatement_mirrors {k : Keyword}
    {make : Option Expression → Span → Statement}
    (hmake : ∀ e? span, M.move (make e? span)
      = make (M.move e?) (span.move M.place))
    (hchildren : ∀ e? span, (make e? span).children
      = e?.toList.map .expression)
    (h : H → M.Fresh s s') (hkind : s.current.kind = .keyword k) :
    Mirrors M M.Fits H False M.move (valueStatement g make)
      (valueStatement g make) ctx s s' M.Along := by
  refine (word_mirrors h hkind).seq (fun token t t' => ?_)
  refine (optionalValue_alike hg And.right).bind (fun argument? u u' => ?_)
  refine (terminator_mirrors true And.right).seq (fun _ v v' => ?_)
  refine .span (fun h => h.2.consumedTo_eq)
    (.pure And.right (fun h => ?_) (hmake _ _).symm)
  refine (h.resolve_left id).statement (fun c hc => ?_)
  rw [hchildren]
  simpa using hc

theorem throwStatement_mirrors {k : Keyword} (h : H → M.Fresh s s')
    (hkind : s.current.kind = .keyword k) :
    Mirrors M M.Fits H False M.move (throwStatement g) (throwStatement g)
      ctx s s' M.Along := by
  refine (word_mirrors h hkind).seq (fun token t t' => ?_)
  refine (expression_alike hg (fun h => h.2.start)).bind
    (fun argument u u' => ?_)
  refine (terminator_mirrors true And.right).seq (fun _ v v' => ?_)
  exact .span (fun h => h.2.consumedTo_eq) (.pure And.right
    (fun h => (h.resolve_left id).statement (fun _ hc => hc)) rfl)

/-! ## Any statement -/

theorem keywordStatement_mirrors {k : Keyword} (h : H → M.Fresh s s')
    (hkind : s.current.kind = .keyword k) :
    Mirrors M M.Fits H False M.move (keywordStatement g k)
      (keywordStatement g k) ctx s s' M.Along := by
  have hother : Mirrors M M.Fits H False M.move (expressionStatement g)
      (expressionStatement g) ctx s s' M.Along :=
    expressionStatement_alike hg (fun hH => (h hH).start)
  cases k with
  | kwExport => exact exportStatement_mirrors hg h hkind
  | kwImport => exact importStatement_mirrors hg h hkind
  | kwVar | kwLet | kwConst =>
    exact declarationStatement_mirrors hg h (by rw [hkind]; rfl)
  | kwIf => exact conditionalStatement_mirrors hg h hkind
  | kwSwitch => exact switchStatement_mirrors hg h hkind
  | kwFor => exact forStatement_mirrors hg h hkind
  | kwWhile => exact whileStatement_mirrors hg h hkind
  | kwDo => exact doStatement_mirrors hg h hkind
  | kwTry => exact tryStatement_mirrors hg h hkind
  | kwBreak | kwContinue =>
    exact jumpStatement_mirrors (fun _ => rfl) h hkind
  | kwReturn =>
    refine valueStatement_mirrors hg (fun e? span => ?_) (fun _ _ => rfl) h
      hkind
    exact congrArg (Statement.returnValue · _) (moveExpression?_eq _ e?)
  | kwYield =>
    refine valueStatement_mirrors hg (fun e? span => ?_) (fun _ _ => rfl) h
      hkind
    exact congrArg (Statement.yieldValue · _) (moveExpression?_eq _ e?)
  | kwThrow => exact throwStatement_mirrors hg h hkind
  | _ => exact hother

/-- **A statement is the same in both texts.** -/
theorem statementFrom_alike :
    Alike M M.Fits M.Start (statementFrom g) (statementFrom g) := by
  intro H ctx s s' h
  refine .begin ((statementFrom_ensures hg.sound).mono
    (fun _ _ _ h => h.1)) h ?_
  have hfresh (hH : H ∧ M.Fresh s s') : M.Fresh s s' := hH.2
  refine .look s.current s'.current rfl rfl ?_
  refine .congr (fun hH => by rw [hH.2.kind_eq]) ?_
  have hother : Mirrors M M.Fits (H ∧ M.Fresh s s') False M.move
      (expressionStatement g) (expressionStatement g) ctx s s' M.Along :=
    expressionStatement_alike hg (fun hH => hH.2.start)
  cases hkind : s.current.kind with
  | keyword k => exact keywordStatement_mirrors hg hfresh hkind
  | punctuator p =>
    cases p with
    | lBrace =>
      exact (hg.block (fun hH => hH.2.start)).bind (fun b _ _ =>
        .pure And.right
          (fun h => (h.resolve_left id).statement (fun _ hc => hc)) rfl)
    | semicolon =>
      exact (advance_mirrors_kind hfresh hkind (fun h => nomatch h)
        (fun h => nomatch h)).seq
        (fun _ _ _ => .pure And.right False.elim rfl)
    | _ => exact hother
  | _ => exact hother

end Parse

/-! ## All levels -/

open Parse

section Levels

variable {α : Type} [Movable α] [HasNodes α] {E : State → Prop}
  [M.Backward E] {P : State → State → Prop} {p q : Parse α}

/-- A production that counts as a level reads the same as without. -/
theorem Parse.guarded_alike
    (hP : ∀ {s s' : State}, P s s' → P s.enter s'.enter) (h : Alike M E P p q) :
    Alike M E P (guarded p) (guarded q) :=
  fun hstart => .guarded (h (fun hH => hP (hstart hH)))
    (fun _ _ => .atDepth _ _)

/-- A production between brackets reads the same as without. -/
theorem Parse.inBrackets_alike
    (hP : ∀ {s s' : State}, P s s' → P s.enter s'.enter) (h : Alike M E P p q) :
    Alike M E P (inBrackets p) (inBrackets q) :=
  guarded_alike (P := P) hP
    (fun hstart => .withReader Context.Within.inBrackets rfl (h hstart))

end Levels

/-- **One more level**: the productions over a mirrored grammar make a
mirrored grammar. -/
theorem Grammar.levels_succ_mirrored {n : Nat}
    (hg : (levels n).Mirrored M) : (levels (n + 1)).Mirrored M where
  sound := levels_succ_sound hg.sound (fun _ _ _ => trivial)
  sound' := levels_succ_sound hg.sound' (fun _ _ _ => trivial)
  abreast := levels_abreast_of (fun _ => rfl) (n + 1)
  statement := guarded_alike (P := M.Start) .enter (statementFrom_alike hg)
  block := guarded_alike (P := M.Start) .enter (blockFrom_alike hg)
  expression min :=
    guarded_alike (P := M.Start) .enter (expressionFrom_alike hg min)
  bracketed point closer := inBrackets_alike (P := M.Start) .enter (fun h =>
    tolerant_mirrors point
      ((Plan.expressionBefore closer).abreast hg.abreast) h
      (expressionBefore_alike hg closer h))
  consequent := inBrackets_alike (P := M.Start) .enter (assignment_alike hg)
  arguments := inBrackets_alike (P := M.Along) .enter (callArguments_alike hg)
  elements := inBrackets_alike (P := M.Along) .enter (arrayElements_alike hg)
  members := inBrackets_alike (P := M.Along) .enter (objectMembers_alike hg)
  methods := inBrackets_alike (P := M.Along) .enter (classMethods_alike hg)
  parameters := inBrackets_alike (P := M.Along) .enter parameterNames_alike
  forHeader := inBrackets_alike (P := M.Along) .enter (forHeader_alike hg)
  catchParameter := inBrackets_alike (P := M.Start) .enter identifier_mirrors
  importSpecifiers := inBrackets_alike (P := M.Along) .enter (specifiers_alike
    importSpecifier_alike
    (importSpecifiersLoop_proceeds (Nat.lt_succ_self (byteLength M.text)))
    (importSpecifiersLoop_proceeds (Nat.lt_succ_self (byteLength M.other))))
  exportSpecifiers := inBrackets_alike (P := M.Along) .enter (specifiers_alike
    exportSpecifier_alike
    (exportSpecifiersLoop_proceeds (Nat.lt_succ_self (byteLength M.text)))
    (exportSpecifiersLoop_proceeds (Nat.lt_succ_self (byteLength M.other))))
  follows {ctx s _ _ _} hctx hs hrun := by
    obtain ⟨hok, rfl⟩ := Prod.mk.inj ((guarded_run ..).symm.trans hrun)
    exact parameterNames_follows (s := s.enter)
      (t := (parameterNames ctx.inBrackets s.enter).2)
      (Nat.lt_succ_self (byteLength M.other)) hctx.inBrackets (hs.atDepth _)
      (Prod.ext hok rfl)

/-- **A grammar of any number of levels reads the same in both texts.** -/
theorem Grammar.levels_mirrored (n : Nat) : (levels n).Mirrored M := by
  induction n with
  | zero => exact exhausted_mirrored
  | succ n ih => exact levels_succ_mirrored ih

end ScriptTree
