import ScriptTree.Parse.Loop
import ScriptTree.Proofs.Mirror.Declaration

/-!
# Conditions and loops in both texts

Most of these statements are a word and what stands behind it, part after
part. Only the header of a `for` loop has to be told apart by a token that
it does not read itself, and so is followed where its parenthesis is read
too.
-/

namespace ScriptTree.Parse

open ScriptTree.Action Mirror

variable {M : Mirror} {H B : Prop} {ctx : Context} {s s' t t' : State}
  {k : Keyword} [M.Lawful] {g : Grammar} (hg : g.Mirrored M)

/-- The word a statement begins with. -/
theorem word_mirrors {E : State → Prop} [M.Backward E]
    (h : H → M.Fresh s s') (hkind : s.current.kind = .keyword k) :
    Mirrors M E H False M.token (liftM advance) (liftM advance) ctx s s'
      M.Along :=
  advance_mirrors_kind h hkind (fun h => nomatch h) (fun h => nomatch h)

include hg

/-! ## Conditions -/

theorem alternative?_alike :
    Alike M M.Fits M.Along (alternative? g) (alternative? g) := by
  intro H ctx s s' h
  refine .look (s.current.isKeyword .kwElse)
    (s'.current.isKeyword .kwElse) rfl rfl ?_
  refine .test (Token.asks_keyword .kwElse) (fun hH => (h hH).start)
    (fun hword => ?_) (fun hword => ?_) (fun _ => .pure h False.elim rfl)
  · exact (advance_past (isEof_of_isKeyword hword)).past (fun _ _ =>
      (statement_ensures hg.sound).bind (fun _ _ _ _ => .pure trivial))
  · refine (word_mirrors And.right
      (of_decide_eq_true hword)).discard.seq (fun _ t t' => ?_)
    exact (statement_alike hg (fun h => h.2.start)).bind (fun x _ _ =>
      .pure And.right (fun h => marked_some.2 (h.resolve_left id)) rfl)

/-- **A condition is the same in both texts.** -/
theorem conditionalStatement_mirrors (h : H → M.Fresh s s')
    (hkind : s.current.kind = .keyword k) :
    Mirrors M M.Fits H False M.move (conditionalStatement g)
      (conditionalStatement g) ctx s s' M.Along := by
  refine (word_mirrors h hkind).seq (fun token t t' => ?_)
  refine (condition_alike hg (fun h => h.2.start)).bind
    (fun test u u' => ?_)
  refine (statement_alike hg (fun h => h.2.start)).bind
    (fun consequent v v' => ?_)
  refine (alternative?_alike hg And.right).bind (fun alternate? w w' => ?_)
  refine .span (fun h => h.2.consumedTo_eq) (.pure And.right ?_ ?_)
  · rintro (((h | h) | h) | h)
    · exact h.elim
    all_goals exact h.statement (by simp +contextual [Statement.children])
  · show _ = Statement.conditional _ _ (moveStatement? _ _) _
    rw [moveStatement?_eq]
    rfl

theorem caseTest_alike :
    Alike M M.Fits M.Start (caseTest g) (caseTest g) := by
  intro H ctx s s' h
  refine .look (s.current.isKeyword .kwCase) (s'.current.isKeyword .kwCase)
    rfl rfl ?_
  refine .test (Token.asks_keyword .kwCase) h (fun hword => ?_)
    (fun hword => ?_) (fun _ => ?_)
  · exact (advance_past (isEof_of_isKeyword hword)).past (fun _ _ =>
      (expression_ensures hg.sound).bind (fun _ _ _ _ => .pure trivial))
  · refine (word_mirrors And.right
      (of_decide_eq_true hword)).discard.seq (fun _ t t' => ?_)
    exact (expression_alike hg (fun h => h.2.start)).bind (fun e _ _ =>
      .pure And.right (fun h => marked_some.2 (h.resolve_left id)) rfl)
  refine .look (s.current.isKeyword .kwDefault)
    (s'.current.isKeyword .kwDefault) rfl rfl ?_
  refine .test (Token.asks_keyword .kwDefault) h (fun hword => ?_)
    (fun hword => ?_) (fun _ => unexpected_mirrors _)
  · exact (advance_past (isEof_of_isKeyword hword)).past
      (fun _ _ => .pure trivial)
  · exact (word_mirrors And.right (of_decide_eq_true hword)).discard.seq
      (fun _ _ _ => .pure And.right False.elim rfl)

/-- **A clause is the same in both texts.** -/
theorem switchCase_alike :
    Alike M M.Fits M.Start (switchCase g) (switchCase g) := by
  intro H ctx s s' h
  refine .begin (switchCase_past hg.sound) h (.here And.right ?_)
  refine (caseTest_alike hg (fun h => h.2.start)).bind
    (fun test? t t' => ?_)
  refine (expectPunctuator_mirrors (by decide)
    (fun h => h.2.start)).discard.seq (fun _ u u' => ?_)
  refine (statementList_alike hg .switchCase And.right).bind
    (fun consequent v v' => ?_)
  refine .span (fun h => h.2.consumedTo_eq) (.pure And.right ?_ ?_)
  · rintro ((h | h) | h)
    · exact h.elim
    · exact h.sub (fun n hn => List.mem_append_left _ (by simpa using hn))
    · exact h.sub (fun n hn => List.mem_append_right _ (by simpa using hn))
  · show _ = SwitchCase.mk (moveExpression? _ _) (moveStatements _ _) _
    rw [moveExpression?_eq, moveStatements_eq]
    rfl

/-- One turn of the loop over the clauses, behind which the brace is
read. -/
theorem switchCasesTurn_mirrors (found : List SwitchCase) (s s' : State) :
    Mirrors M M.More (M.Along s s') (M.Marked found) M.move
      (switchCasesTurn g found) (switchCasesTurn g (M.move found)) ctx s s'
      M.Along := by
  refine .of_back (.look (s.current.isPunctuator .rBrace)
    (s'.current.isPunctuator .rBrace) rfl rfl ?_)
  refine .ite (fun h => ?_) (fun _ => ?_) (fun _ => ?_)
  · rw [(h.1.inside h.2).asks (Token.asks_punctuator .rBrace)]
  · exact .pure And.left marked_reverse.2
      (congrArg Turn.done List.map_reverse.symm)
  · exact (switchCase_alike hg (fun h => h.1.start)).more.bind
      (fun c t t' => .pure And.right (fun h => marked_cons.2 h.symm) rfl)

/-- **A choice between clauses is the same in both texts.** -/
theorem switchStatement_mirrors (h : H → M.Fresh s s')
    (hkind : s.current.kind = .keyword k) :
    Mirrors M M.Fits H False M.move (switchStatement g) (switchStatement g)
      ctx s s' M.Along := by
  have hturns := Nat.lt_succ_self (byteLength M.text)
  have hturns' := Nat.lt_succ_self (byteLength M.other)
  refine (word_mirrors h hkind).seq (fun token t t' => ?_)
  refine (condition_alike hg (fun h => h.2.start)).bind
    (fun discriminant u u' => ?_)
  refine (expectPunctuator_mirrors (by decide)
    (fun h => h.2.start)).discard.seq (fun _ v v' => ?_)
  refine .look ctx (M.reflect ctx) rfl rfl ?_
  refine Mirrors.bindMore ((Loop.run_mirrors ctx (switchCasesTurn_mirrors hg)
    (switchCasesLoop_proceeds hturns hg.sound)
    (switchCasesLoop_proceeds hturns' hg.sound') [] v v').mono And.right
    False.elim (fun _ => id) (fun _ _ => id)) (fun _ w => ?_)
    (fun cases w w' => ?_)
  · exact (expectPunctuator_past .rBrace).past
      (fun _ x => .look (x.spanFrom token.span.start) rfl (.pure trivial))
  refine (expectPunctuator_mirrors (by decide)
    (fun h => h.2.start)).discard.seq (fun _ x x' => ?_)
  refine .span (fun h => h.2.consumedTo_eq) (.pure And.right ?_ ?_)
  · rintro ((h | h) | h)
    · exact h.elim
    · exact h.statement (by simp [Statement.children])
    · exact h.statement (fun _ hc => List.mem_cons_of_mem _ hc)
  · show _ = Statement.switch _ (moveCases _ _) _
    rw [moveCases_eq]
    rfl

/-! ## Loops with a condition -/

theorem whileStatement_mirrors (h : H → M.Fresh s s')
    (hkind : s.current.kind = .keyword k) :
    Mirrors M M.Fits H False M.move (whileStatement g) (whileStatement g)
      ctx s s' M.Along := by
  refine (word_mirrors h hkind).seq (fun token t t' => ?_)
  refine (condition_alike hg (fun h => h.2.start)).bind
    (fun test u u' => ?_)
  refine (statement_alike hg (fun h => h.2.start)).bind
    (fun body v v' => ?_)
  refine .span (fun h => h.2.consumedTo_eq) (.pure And.right ?_ rfl)
  rintro ((h | h) | h)
  · exact h.elim
  all_goals exact h.statement (by simp [Statement.children])

theorem doStatement_mirrors (h : H → M.Fresh s s')
    (hkind : s.current.kind = .keyword k) :
    Mirrors M M.Fits H False M.move (doStatement g) (doStatement g) ctx s s'
      M.Along := by
  refine (word_mirrors h hkind).seq (fun token t t' => ?_)
  refine (hg.block (fun h => h.2.start)).bind (fun body u u' => ?_)
  refine (expectKeyword_mirrors .kwWhile
    (fun h => h.2.start)).discard.seq (fun _ v v' => ?_)
  refine (condition_alike hg (fun h => h.2.start)).bind
    (fun test w w' => ?_)
  refine (terminator_mirrors false And.right).seq (fun _ x x' => ?_)
  refine .span (fun h => h.2.consumedTo_eq) (.pure And.right ?_ rfl)
  rintro ((h | h) | h)
  · exact h.elim
  all_goals exact h.statement (by simp [Statement.children])

/-! ## Loops over a range -/

theorem headerPart_alike (closer : Punctuator) :
    Alike M M.Fits M.Start (headerPart g closer) (headerPart g closer) :=
  fun h => tolerant_mirrors .forHeader
    ((Plan.expressionBefore closer).abreast hg.abreast) h
    (expressionBefore_alike hg closer h)

theorem optionalHeaderPart_alike (closer : Punctuator) :
    Alike M M.More M.Along (optionalHeaderPart g closer)
      (optionalHeaderPart g closer) := by
  intro H ctx s s' h
  refine .of_back (.look (s.current.isPunctuator closer)
    (s'.current.isPunctuator closer) rfl rfl ?_)
  refine .ite (fun hH => ?_)
    (fun _ => .pure (fun hH => h hH.1) False.elim rfl) (fun _ => ?_)
  · rw [((h hH.1).inside hH.2).asks (Token.asks_punctuator closer)]
  · exact (headerPart_alike hg closer (fun hH => (h hH.1).start)).more.bind
      (fun e t t' => .pure And.right
        (fun h => marked_some.2 (h.resolve_left id)) rfl)

omit hg [M.Lawful] in
/-- The first part of a header is another node when it declares
variables, but has what is marked below it. -/
theorem marked_init {init? : Option ForInit} (h : M.Marked init?) :
    ∃ n ∈ init?.toList.map ForInit.part, M.MarkedNode n := by
  cases init? with
  | none => exact (marked_none h).elim
  | some i =>
    refine ⟨i.part, List.mem_singleton_self _, ?_⟩
    have h := marked_some.1 h
    cases i with
    | declaration d => exact h.node (fun _ hc => hc)
    | expression e =>
      obtain ⟨n, hn, hmarked⟩ := h
      rw [List.mem_singleton.1 hn] at hmarked
      exact hmarked

theorem headerInit_alike :
    Alike M M.More M.Along (headerInit g) (headerInit g) := by
  intro H ctx s s' h
  refine .of_back (.look s.current s'.current rfl rfl ?_)
  have hfresh (hH : H ∧ M.More s) : M.Fresh s s' :=
    ((h hH.1).inside hH.2).toFresh
  refine .ite (fun hH => ?_)
    (fun _ => .pure (fun hH => h hH.1) False.elim rfl) (fun _ => ?_)
  · rw [(hfresh hH).asks (Token.asks_punctuator .semicolon)]
  refine .ite (fun hH => by rw [(hfresh hH).kind_eq]) (fun hsome => ?_)
    (fun _ => ?_)
  · obtain ⟨kind, hkind⟩ := Option.isSome_iff_exists.1 hsome
    refine (Mirrors.withReader Context.Within.withoutIn rfl
      (variableDeclaration_mirrors hg hfresh hkind).more).bind
      (fun d t t' => .pure And.right
        (fun h => marked_some.2 (h.resolve_left id)) rfl)
  · refine (Mirrors.withReader Context.Within.withoutIn rfl
      (tolerant_mirrors .forHeader (Plan.expression.abreast hg.abreast)
        (fun hH => (hfresh hH).start)
        (expression_alike hg (fun hH => (hfresh hH).start))).more).bind
      (fun e t t' => .pure And.right
        (fun h => marked_some.2 (h.resolve_left id)) rfl)

omit hg [M.Lawful] in
theorem headerKind?_move (init? : Option ForInit) :
    headerKind? (M.move init?) = headerKind? init? := by
  cases init? with
  | none => rfl
  | some i =>
    cases i with
    | declaration d => cases d; rfl
    | expression e => rfl

omit hg [M.Lawful] in
theorem loopTarget?_move (init? : Option ForInit) :
    loopTarget? (M.move init?) = M.move (loopTarget? init?) := by
  cases init? with
  | none => rfl
  | some i =>
    cases i with
    | expression e => rfl
    | declaration d =>
      obtain ⟨kind, ds, span⟩ := d
      match ds with
      | [] => rfl
      | [.binding id none span] => rfl
      | [.binding id (some e) span] => rfl
      | [.error e] => rfl
      | .binding _ none _ :: _ :: _ => rfl
      | .binding _ (some _) _ :: _ :: _ => rfl
      | .error _ :: _ :: _ => rfl

omit hg [M.Lawful] in
/-- What is marked in the first part of a header is marked in what is set
by the loop. -/
theorem marked_loopTarget? {init? : Option ForInit} {left : Expression}
    (h : M.Marked init?) (hleft : loopTarget? init? = some left) :
    M.Marked left := by
  unfold loopTarget? at hleft
  split at hleft
  · cases hleft
    exact marked_some.1 h
  · rename_i d
    split at hleft
    · rename_i id span hd
      cases hleft
      refine (marked_some.1 h).expression (fun c hc => ?_)
      have hc : c ∈ d.declarators.flatMap Declarator.parts := hc
      rw [hd] at hc
      exact hc
    · exact nomatch hleft
  · exact nomatch hleft

/-- **What is behind the first part of a header** in a loop over an object
or a collection. -/
theorem eachHeader_mirrors (init? : Option ForInit) (h : H → M.Fresh s s')
    (heof : s.current.isEof = false) :
    Mirrors M M.More H (M.Marked init?) M.move (eachHeader g init?)
      (eachHeader g (M.move init?)) ctx s s' M.Along := by
  have htarget := loopTarget?_move (M := M) init?
  unfold eachHeader
  rw [htarget]
  cases hleft : loopTarget? init? with
  | none => exact unexpected_mirrors _
  | some left =>
    refine (advance_mirrors h heof).discard.seq (fun _ t t' => ?_)
    refine (headerPart_alike hg .rParen (fun h => h.2.start)).more.bind
      (fun right u u' => .pure And.right ?_ rfl)
    rintro (h | h)
    · exact (marked_loopTarget? h hleft).sub
        (fun _ hn => List.mem_append_left _ hn)
    · exact h.sub (fun _ hn => List.mem_append_right _ hn)

/-- **The header of a loop is the same in both texts**, if its parenthesis
is read. -/
theorem forHeader_alike :
    Alike M M.More M.Along (forHeader g) (forHeader g) := by
  intro H ctx s s' h
  refine (headerInit_alike hg h).bind (fun init? t t' => ?_)
  have hfresh {H : Prop} (hH : (H ∧ M.Along t t') ∧ M.More t) :
      M.Fresh t t' := (hH.1.2.inside hH.2).toFresh
  have heach (mk : Expression → Expression → ForHeader)
      (hparts : ∀ left right, (mk left right).parts
        = [.expression left, .expression right])
      (hmove : ∀ left right, M.move (mk left right)
        = mk (M.move left) (M.move right))
      (heof : t.current.isEof = false) :
      Mirrors M M.More ((H ∧ M.Along t t') ∧ M.More t)
        (False ∨ M.Marked init?) M.move
        (do
          let r ← eachHeader g init?
          pure (mk r.1 r.2))
        (do
          let r ← eachHeader g (M.move init?)
          pure (mk r.1 r.2)) ctx t t' M.Along := by
    refine .mono (.bindKept (eachHeader_mirrors hg init? hfresh heof)
      (fun r u u' => .pure And.right (fun h => h.sub (fun n hn => ?_))
        (hmove r.1 r.2).symm)) id (fun h => h.resolve_left id)
      (fun _ => id) (fun _ _ => id)
    show n ∈ (mk r.1 r.2).parts
    rw [hparts]
    exact hn
  refine .of_back (.look (t.current.isKeyword .kwIn)
    (t'.current.isKeyword .kwIn) rfl rfl ?_)
  refine .ite (fun hH => ?_) (fun hword => ?_) (fun _ => ?_)
  · rw [(hfresh hH).asks (Token.asks_keyword .kwIn)]
  · rw [headerKind?_move]
    exact heach (.overKeys (headerKind? init?)) (fun _ _ => rfl)
      (fun _ _ => rfl) (isEof_of_isKeyword hword)
  refine .look (t.current.isWord "of") (t'.current.isWord "of") rfl rfl ?_
  refine .ite (fun hH => ?_) (fun hword => ?_) (fun _ => ?_)
  · rw [(hfresh hH).asks (Token.asks_word "of")]
  · rw [headerKind?_move]
    exact heach (.overValues (headerKind? init?)) (fun _ _ => rfl)
      (fun _ _ => rfl) (isEof_of_isWord hword)
  refine (expectPunctuator_mirrors (by decide)
    (fun h => h.1.2.start)).discard.seq (fun _ u u' => ?_)
  refine (optionalHeaderPart_alike hg .semicolon And.right).bind
    (fun test? v v' => ?_)
  refine (expectPunctuator_mirrors (by decide)
    (fun h => h.2.start)).discard.seq (fun _ w w' => ?_)
  refine (optionalHeaderPart_alike hg .rParen And.right).bind
    (fun update? x x' => .pure And.right ?_ rfl)
  rintro (((h | h) | h) | h)
  · exact h.elim
  · obtain ⟨n, hn, hmarked⟩ := marked_init h
    exact ⟨n, List.mem_append_left _ (List.mem_append_left _ hn), hmarked⟩
  · exact h.sub (fun n hn => List.mem_append_left _
      (List.mem_append_right _ (by simpa using hn)))
  · exact h.sub (fun n hn => List.mem_append_right _ (by simpa using hn))

omit hg [M.Lawful] in
theorem loopOf_move (header : ForHeader) (body : Statement) (span : Span) :
    M.move (loopOf header body span)
      = loopOf (M.move header) (M.move body) (span.move M.place) := by
  cases header with
  | counting init? test? update? =>
    show Statement.forLoop (moveInit? _ _) (moveExpression? _ _)
      (moveExpression? _ _) _ _ = _
    rw [moveInit?_eq, moveExpression?_eq, moveExpression?_eq]
    rfl
  | _ => rfl

/-- **A `for` loop is the same in both texts.** -/
theorem forStatement_mirrors (h : H → M.Fresh s s')
    (hkind : s.current.kind = .keyword k) :
    Mirrors M M.Fits H False M.move (forStatement g) (forStatement g) ctx s
      s' M.Along := by
  refine (word_mirrors h hkind).seq (fun token t t' => ?_)
  refine (expectPunctuator_mirrors (by decide)
    (fun h => h.2.start)).discard.seq (fun _ u u' => ?_)
  refine (hg.forHeader And.right).bindMore (fun _ _ => ?_)
    (fun header v v' => ?_)
  · refine (expectPunctuator_past .rParen).past (fun _ _ => ?_)
    exact (statement_ensures hg.sound).bind (fun _ x _ _ =>
      .look (x.spanFrom token.span.start) rfl (.pure trivial))
  refine (expectPunctuator_mirrors (by decide)
    (fun h => h.2.start)).discard.seq (fun _ w w' => ?_)
  refine (statement_alike hg (fun h => h.2.start)).bind
    (fun body x x' => ?_)
  refine .span (fun h => h.2.consumedTo_eq) (.pure And.right ?_
    (loopOf_move _ _ _).symm)
  rintro ((h | h) | h)
  · exact h.elim
  · refine h.statement (fun c hc => ?_)
    have hc : c ∈ header.parts := hc
    cases header with
    | counting => exact List.mem_append_left _ hc
    | overKeys | overValues => exact List.mem_append_left [_] hc
  · cases header <;> exact h.statement (by
      simp [loopOf, Statement.children])

end ScriptTree.Parse
