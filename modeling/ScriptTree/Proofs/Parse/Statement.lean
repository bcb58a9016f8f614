import ScriptTree.Parse.Levels
import ScriptTree.Parse.Loop
import ScriptTree.Proofs.Parse.Declaration
import ScriptTree.Proofs.Parse.Module

/-!
# All productions in their places

Most statements are a word and what stands behind it, part after part. The
one that is different is a loop over an object or a collection whose first
part declares a variable: of the declaration its name alone is kept, and the
name is where it was.

The grammar as a whole comes last: a grammar of any number of levels reads
what it should, by induction on the levels (`Grammar.levels_sound`). It is
asked of the expressions of a fold alone that they be as they should;
nothing else depends on how they came to be.
-/

namespace ScriptTree.Parse

open ScriptTree.Action

variable {root ctx : Context} {s : State} {P : Expression → Prop}
  {g : Grammar} (hg : g.Sound root P)

include hg

/-! ## Conditions -/

/-- The other branch of a condition, if there is one. -/
theorem alternative?_ensures :
    Ensures root (alternative? g) ctx s (fun x? t =>
      State.Parts root P s.here (x?.toList.map .statement) t) := by
  refine .look (s.current.isKeyword .kwElse) rfl
    (.ite (fun h => ?_) (fun _ => .pure (.nil (Nat.le_refl _))))
  refine (Ensures.lift (advance_ensures
    (isEof_of_isKeyword h)).discard).bind fun _ t hst _ => ?_
  refine (statement_ensures hg).bind fun x u htu hx => ?_
  exact .pure ((hx.parts htu).sooner hst.here_le)

/-- **A condition** with its branches is a statement from its word to the end
of the last branch. -/
theorem conditionalStatement_ensures (heof : s.current.isEof = false) :
    Ensures root (conditionalStatement g) ctx s
      (State.Reads (As root P .statement) s.here) := by
  refine .of_good (fun _ hs => ?_)
  refine (Ensures.lift (advance_ensures heof)).bind
    fun token t hst htook => ?_
  refine (condition_ensures hg).bind fun test u htu htest => ?_
  refine (statement_ensures hg).bind fun consequent v huv hconsequent => ?_
  refine (alternative?_ensures hg).bind fun x? w hvw hx => ?_
  refine .look (w.spanFrom token.span.start) rfl (.pure ?_)
  exact behindWord hs hst htook (htu.trans (huv.trans hvw)) rfl rfl
    ((htest.read huv hconsequent).append hvw hx)

/-- What a clause is for. A word has been read in any case. -/
theorem caseTest_ensures :
    Ensures root (caseTest g) ctx s (fun e? t =>
      s.here < t.consumedTo
        ∧ State.Parts root P s.here (e?.toList.map .expression) t) := by
  refine .look (s.current.isKeyword .kwCase) rfl
    (.ite (fun h => ?_) (fun _ => ?_))
  · refine (Ensures.lift (advance_ensures
      (isEof_of_isKeyword h)).discard).bind fun _ t hst _ => ?_
    refine (expression_ensures hg).bind fun e u htu he => ?_
    have hparts := (he.parts htu).sooner hst.here_le
    exact .pure ⟨hparts.past, hparts⟩
  · refine .look (s.current.isKeyword .kwDefault) rfl
      (.ite (fun h => ?_) (fun _ => unexpected_ensures _))
    refine (Ensures.lift (advance_ensures
      (isEof_of_isKeyword h)).discard).bind fun _ t hst htook => ?_
    obtain ⟨token, htook⟩ := htook
    exact .pure ⟨htook.past, .nil hst.here_le⟩

/-- **A clause** is no node, but its nodes stand in a row. -/
theorem switchCase_ensures :
    Ensures root (switchCase g) ctx s (fun c t =>
      State.Parts root P s.here c.parts t) := by
  refine .look s.here rfl ?_
  refine (caseTest_ensures hg).bind fun test? t _ htest => ?_
  refine (expectPunctuator_ensures .colon).discard.bind
    fun _ u htu _ => ?_
  refine (Ensures.lift (statementList_ensures hg .switchCase)).bind
    fun xs v huv hxs => ?_
  refine .look (v.spanFrom s.here) rfl ?_
  exact .pure ((htest.2.later htu).append huv hxs.row.parts)

/-- The loop over the clauses of a switch. -/
theorem switchCasesFrom_ensures (turns : Nat) {b : Nat}
    {found : List SwitchCase}
    (hfound : State.Parts root P b (found.reverse.flatMap SwitchCase.parts)
      s) :
    Ensures root (switchCasesFrom g turns found) ctx s (fun cs t =>
      State.Parts root P b (cs.flatMap SwitchCase.parts) t) := by
  -- A clause is no node: the row is one of the nodes in the clauses.
  induction turns generalizing s found with
  | zero => exact .pure hfound
  | succ turns ih =>
    refine .look (s.current.isPunctuator .rBrace) rfl
      (.ite (fun _ => .pure hfound) (fun _ => ?_))
    refine (switchCase_ensures hg).bind fun c t hst hc => ih ?_
    rw [List.reverse_cons, List.flatMap_append, List.flatMap_singleton]
    exact hfound.append hst hc

/-- A choice between clauses, with its braces. -/
theorem switchStatement_ensures (heof : s.current.isEof = false) :
    Ensures root (switchStatement g) ctx s
      (State.Reads (As root P .statement) s.here) := by
  refine .of_good (fun _ hs => ?_)
  refine (Ensures.lift (advance_ensures heof)).bind
    fun token t hst htook => ?_
  refine (condition_ensures hg).bind fun discriminant u htu hdisc => ?_
  refine (expectPunctuator_ensures .lBrace).discard.bind
    fun _ v huv _ => ?_
  refine .look ctx rfl ?_
  refine (switchCasesFrom_ensures hg _ (.nil (Nat.le_refl v.here))).bind
    fun cases w hvw hcases => ?_
  refine (expectPunctuator_ensures .rBrace).discard.bind
    fun _ x hwx _ => ?_
  refine .look (x.spanFrom token.span.start) rfl (.pure ?_)
  exact behindWord hs hst htook (htu.trans (huv.trans (hvw.trans hwx))) rfl
    rfl (((hdisc.later huv).append hvw hcases).later hwx)

/-! ## Loops with a condition -/

/-- A loop with its condition in front. -/
theorem whileStatement_ensures (heof : s.current.isEof = false) :
    Ensures root (whileStatement g) ctx s
      (State.Reads (As root P .statement) s.here) := by
  refine .of_good (fun _ hs => ?_)
  refine (Ensures.lift (advance_ensures heof)).bind
    fun token t hst htook => ?_
  refine (condition_ensures hg).bind fun test u htu htest => ?_
  refine (statement_ensures hg).bind fun body v huv hbody => ?_
  refine .look (v.spanFrom token.span.start) rfl (.pure ?_)
  exact behindWord hs hst htook (htu.trans huv) rfl rfl
    (htest.read huv hbody)

/-- A loop with its condition behind, and a terminator behind that. -/
theorem doStatement_ensures (heof : s.current.isEof = false) :
    Ensures root (doStatement g) ctx s
      (State.Reads (As root P .statement) s.here) := by
  refine .of_good (fun _ hs => ?_)
  refine (Ensures.lift (advance_ensures heof)).bind
    fun token t hst htook => ?_
  refine hg.block.bind fun body u htu hbody => ?_
  refine (expectKeyword_ensures _).discard.bind fun _ v huv _ => ?_
  refine (condition_ensures hg).bind fun test w hvw htest => ?_
  refine terminated fun x hwx => ?_
  refine .look (x.spanFrom token.span.start) rfl (.pure ?_)
  exact behindWord hs hst htook (htu.trans (huv.trans (hvw.trans hwx))) rfl
    rfl ((((hbody.parts htu).later huv).append hvw htest).later hwx)

/-! ## Loops over a range -/

/-- A part of a header is a tolerant point. -/
theorem headerPart_ensures (closer : Punctuator) :
    Ensures root (headerPart g closer) ctx s
      (State.Reads (As root P .expression) s.here) :=
  tolerant_ensures hg.mend_expression .forHeader
    (expressionBefore_ensures hg closer)

theorem optionalHeaderPart_ensures (closer : Punctuator) :
    Ensures root (optionalHeaderPart g closer) ctx s (fun e? t =>
      State.Parts root P s.here (e?.toList.map .expression) t) := by
  refine .look (s.current.isPunctuator closer) rfl
    (.ite (fun _ => .pure (.nil (Nat.le_refl _))) (fun _ => ?_))
  refine (headerPart_ensures hg closer).bind fun e t hst he => ?_
  exact .pure (he.parts hst)

/-- The first part of a header, of either kind. -/
theorem headerInit_ensures :
    Ensures root (headerInit g) ctx s (fun i? t =>
      State.Parts root P s.here (i?.toList.map ForInit.part) t) := by
  refine .look s.current rfl
    (.ite (fun _ => .pure (.nil (Nat.le_refl _))) (fun _ => ?_))
  refine .ite (fun h => ?_) (fun _ => ?_)
  · obtain ⟨kind, hkind⟩ := Option.isSome_iff_exists.1 h
    refine (Ensures.withReader Context.Within.withoutIn
      (variableDeclaration_ensures hg hkind)).bind fun d t hst hd => ?_
    exact .pure (hd.1.parts hst)
  · refine (Ensures.withReader Context.Within.withoutIn
      (tolerant_ensures hg.mend_expression .forHeader
        (expression_ensures hg))).bind fun e t hst he => ?_
    exact .pure (he.parts hst)

/-- **What a loop sets** stands in the first part of its header. -/
theorem parts_of_loopTarget? {init? : Option ForInit} {left : Expression}
    {b : Nat} (h : loopTarget? init? = some left)
    (hparts : State.Parts root P b (init?.toList.map ForInit.part) s) :
    State.Parts root P b [.expression left] s := by
  unfold loopTarget? at h
  split at h
  · obtain rfl := Option.some.inj h
    exact hparts
  · rename_i d
    split at h
    · rename_i id span hd
      obtain rfl := Option.some.inj h
      obtain ⟨c, e, hc, _, he, hfills, _⟩ := hparts.row
      have hchildren : (ForInit.declaration d).part.children
          = [.identifier id] := by
        rw [ForInit.part, Node.children, hd]
        rfl
      -- The name is the only node below the declaration.
      have hrow := hfills.children
      rw [hchildren] at hrow
      obtain ⟨c', e', hc', hlt, he', hid, _⟩ := hrow
      exact ⟨hparts.le, .single (hid.wrap rfl rfl rfl (hg.primary rfl))
        (Nat.le_trans hc hc') hlt (Nat.le_trans he' he)⟩
    · cases h
  · cases h

/-- **A header for a range**: what was read as a declaration or an expression
is read as what the loop assigns to. -/
theorem eachHeader_ensures {init? : Option ForInit}
    (heof : s.current.isEof = false) {b : Nat}
    (hparts : State.Parts root P b (init?.toList.map ForInit.part) s) :
    Ensures root (eachHeader g init?) ctx s (fun r t =>
      State.Parts root P b [.expression r.1, .expression r.2] t) := by
  unfold eachHeader
  split
  · exact unexpected_ensures _
  · rename_i left hleft
    have hparts := parts_of_loopTarget? hg hleft hparts
    refine (Ensures.lift (advance_ensures heof).discard).bind
      fun _ t hst _ => ?_
    refine (headerPart_ensures hg _).bind fun right u htu hright => ?_
    exact .pure ((hparts.later hst).read htu hright)

/-- **The header of a loop.** -/
theorem forHeader_ensures :
    Ensures root (forHeader g) ctx s (fun header t =>
      State.Parts root P s.here header.parts t) := by
  refine (headerInit_ensures hg).bind fun init? t _ hinit => ?_
  dsimp only
  refine .look (t.current.isKeyword .kwIn) rfl
    (.ite (fun h => ?_) (fun _ => ?_))
  · refine (eachHeader_ensures hg (isEof_of_isKeyword h) hinit).bind
      fun r u _ hr => ?_
    exact .pure hr
  refine .look (t.current.isWord "of") rfl (.ite (fun h => ?_) (fun _ => ?_))
  · refine (eachHeader_ensures hg (isEof_of_isWord h) hinit).bind
      fun r u _ hr => ?_
    exact .pure hr
  refine (expectPunctuator_ensures .semicolon).discard.bind
    fun _ u htu _ => ?_
  refine (optionalHeaderPart_ensures hg _).bind fun test? v huv htest => ?_
  refine (expectPunctuator_ensures .semicolon).discard.bind
    fun _ w hvw _ => ?_
  refine (optionalHeaderPart_ensures hg _).bind fun update? x hwx hupdate => ?_
  exact .pure ((((hinit.later htu).append huv htest).later hvw).append hwx
    hupdate)

/-- A loop with its header in parentheses. -/
theorem forStatement_ensures (heof : s.current.isEof = false) :
    Ensures root (forStatement g) ctx s
      (State.Reads (As root P .statement) s.here) := by
  refine .of_good (fun _ hs => ?_)
  refine (Ensures.lift (advance_ensures heof)).bind
    fun token t hst htook => ?_
  refine (expectPunctuator_ensures .lParen).discard.bind
    fun _ u htu _ => ?_
  refine hg.forHeader.bind fun header v huv hheader => ?_
  refine (expectPunctuator_ensures .rParen).discard.bind
    fun _ w hvw _ => ?_
  refine (statement_ensures hg).bind fun body x hwx hbody => ?_
  refine .look (x.spanFrom token.span.start) rfl (.pure ?_)
  have hparts := ((hheader.later hvw).read hwx hbody).sooner htu.here_le
  have htx := htu.trans (huv.trans (hvw.trans hwx))
  cases header with
  | counting | overKeys | overValues =>
    exact behindWord hs hst htook htx rfl rfl hparts

end ScriptTree.Parse

namespace ScriptTree

variable {root ctx : Context} {s : State} {P : Expression → Prop}

namespace Parse

open ScriptTree.Action

variable {g : Grammar} (hg : g.Sound root P)

include hg

/-! ## Blocks -/

/-- **A block** reads at least its first brace. -/
theorem blockFrom_ensures :
    Ensures root (blockFrom g) ctx s
      (State.Reads (As root P .block) s.here) := by
  refine .of_good (fun _ hs => ?_)
  refine (expectPunctuator_ensures _).bind fun opening t hst hopening => ?_
  refine (Ensures.lift (statementList_ensures hg .brace)).bind
    fun body u htu hbody => ?_
  refine (expectPunctuator_ensures .rBrace).discard.bind
    fun _ v huv _ => ?_
  refine .look (v.spanFrom opening.span.start) rfl ?_
  have hpast := Nat.lt_of_lt_of_le hopening.past (htu.trans huv).consumedTo_le
  rw [hopening.start_eq, State.spanFrom_eq hpast]
  exact .pure (huv.node hs.isCut_here hpast rfl rfl
    ((hbody.row.parts.sooner hst.here_le).later huv) trivial)

/-! ## Exceptions -/

/-- The name for an exception, in parentheses. -/
theorem catchParameter?_ensures :
    Ensures root (catchParameter? g) ctx s (fun id? t =>
      State.Parts root P s.here (id?.toList.map .identifier) t) := by
  refine (Ensures.lift (eat_ensures .lParen)).bind fun _ t hst _ => ?_
  refine .ite (fun _ => ?_) (fun _ => .pure (.nil hst.here_le))
  refine hg.catchParameter.bind fun param u htu hparam => ?_
  refine (expectPunctuator_ensures .rParen).discard.bind
    fun _ v huv _ => ?_
  exact .pure (((hparam.parts htu).sooner hst.here_le).later huv)

/-- What is done about an exception, if anything is. -/
theorem catchClause?_ensures :
    Ensures root (catchClause? g) ctx s (fun c? t =>
      State.Parts root P s.here ((c?.map CatchClause.parts).getD []) t) := by
  refine .look (s.current.isKeyword .kwCatch) rfl
    (.ite (fun h => ?_) (fun _ => .pure (.nil (Nat.le_refl _))))
  refine (Ensures.lift (advance_ensures (isEof_of_isKeyword h))).bind
    fun token t hst _ => ?_
  refine (catchParameter?_ensures hg).bind fun param? u htu hparam => ?_
  refine hg.block.bind fun body v huv hbody => ?_
  refine .look (v.spanFrom token.span.start) rfl (.pure ?_)
  exact (hparam.read huv hbody).sooner hst.here_le

theorem finallyBlock?_ensures :
    Ensures root (finallyBlock? g) ctx s (fun b? t =>
      State.Parts root P s.here (b?.toList.map .block) t) := by
  refine .look (s.current.isKeyword .kwFinally) rfl
    (.ite (fun h => ?_) (fun _ => .pure (.nil (Nat.le_refl _))))
  refine (Ensures.lift (advance_ensures
    (isEof_of_isKeyword h)).discard).bind fun _ t hst _ => ?_
  refine hg.block.bind fun body u htu hbody => ?_
  exact .pure ((hbody.parts htu).sooner hst.here_le)

/-- A block with what is done about exceptions. -/
theorem tryStatement_ensures (heof : s.current.isEof = false) :
    Ensures root (tryStatement g) ctx s
      (State.Reads (As root P .statement) s.here) := by
  refine .of_good (fun _ hs => ?_)
  refine (Ensures.lift (advance_ensures heof)).bind
    fun token t hst htook => ?_
  refine hg.block.bind fun body u htu hbody => ?_
  refine (catchClause?_ensures hg).bind fun handler? v huv hhandler => ?_
  refine (finallyBlock?_ensures hg).bind
    fun finalizer? w hvw hfinalizer => ?_
  refine .look (w.spanFrom token.span.start) rfl (.pure ?_)
  refine behindWord hs hst htook (htu.trans (huv.trans hvw)) rfl rfl ?_
  have hparts := ((hbody.parts htu).append huv hhandler).append hvw
    hfinalizer
  rwa [List.append_assoc] at hparts

/-! ## Statements with a value, or none -/

omit hg in
/-- The way out of a loop has no parts. -/
theorem jumpStatement_ensures (P : Expression → Prop)
    {make : Span → Statement} (heof : s.current.isEof = false)
    (hmake : ∀ span, (make span).span = span
      ∧ (make span).children = []
      ∧ (Node.statement (make span)).isPlain = true) :
    Ensures root (jumpStatement make) ctx s
      (State.Reads (As root P .statement) s.here) := by
  refine .of_good (fun _ hs => ?_)
  refine (Ensures.lift (advance_ensures heof)).bind
    fun token t hst htook => ?_
  refine terminated fun u htu => ?_
  refine .look (u.spanFrom token.span.start) rfl (.pure ?_)
  obtain ⟨hspan, hchildren, hplain⟩ := hmake (u.spanFrom token.span.start)
  refine behindWord hs hst htook htu hplain hspan ?_
  rw [show (Node.statement _).children = _ from hchildren]
  exact .nil htu.here_le

/-- The value behind a word, unless the statement ends there. -/
theorem optionalValue_ensures :
    Ensures root (optionalValue g) ctx s (fun e? t =>
      State.Parts root P s.here (e?.toList.map .expression) t) := by
  refine .look (s.current.isPunctuator .semicolon || s.newlineBefore
    || s.atListEnd ctx) rfl ?_
  refine .ite (fun _ => .pure (.nil (Nat.le_refl _))) (fun _ => ?_)
  refine (expression_ensures hg).bind fun e t hst he => ?_
  exact .pure (he.parts hst)

/-- **A value handed out** is the only part of its statement. -/
theorem valueStatement_ensures
    {make : Option Expression → Span → Statement}
    (heof : s.current.isEof = false)
    (hmake : ∀ argument? span, (make argument? span).span = span
      ∧ (make argument? span).children = argument?.toList.map .expression
      ∧ (Node.statement (make argument? span)).isPlain = true) :
    Ensures root (valueStatement g make) ctx s
      (State.Reads (As root P .statement) s.here) := by
  refine .of_good (fun _ hs => ?_)
  refine (Ensures.lift (advance_ensures heof)).bind
    fun token t hst htook => ?_
  refine (optionalValue_ensures hg).bind
    fun argument? u htu hargument => ?_
  refine terminated fun v huv => ?_
  refine .look (v.spanFrom token.span.start) rfl (.pure ?_)
  obtain ⟨hspan, hchildren, hplain⟩ :=
    hmake argument? (v.spanFrom token.span.start)
  refine behindWord hs hst htook (htu.trans huv) hplain hspan ?_
  rw [show (Node.statement _).children = _ from hchildren]
  exact hargument.later huv

theorem throwStatement_ensures (heof : s.current.isEof = false) :
    Ensures root (throwStatement g) ctx s
      (State.Reads (As root P .statement) s.here) := by
  refine .of_good (fun _ hs => ?_)
  refine (Ensures.lift (advance_ensures heof)).bind
    fun token t hst htook => ?_
  refine (expression_ensures hg).bind fun argument u htu hargument => ?_
  refine terminated fun v huv => ?_
  refine .look (v.spanFrom token.span.start) rfl (.pure ?_)
  exact behindWord hs hst htook (htu.trans huv) rfl rfl
    ((hargument.parts htu).later huv)

/-! ## Any statement -/

/-- **What a reserved word begins**, word by word. -/
theorem keywordStatement_ensures {k : Keyword}
    (hk : s.current.kind = .keyword k) :
    Ensures root (keywordStatement g k) ctx s
      (State.Reads (As root P .statement) s.here) := by
  have heof : s.current.isEof = false :=
    isEof_eq_false hk (fun h => nomatch h)
  unfold keywordStatement
  split
  case h_1 => exact exportStatement_ensures hg heof
  case h_2 => exact importStatement_ensures hg heof
  case h_3 => exact declarationStatement_ensures hg (by rw [hk]; rfl)
  case h_4 => exact declarationStatement_ensures hg (by rw [hk]; rfl)
  case h_5 => exact declarationStatement_ensures hg (by rw [hk]; rfl)
  case h_6 => exact conditionalStatement_ensures hg heof
  case h_7 => exact switchStatement_ensures hg heof
  case h_8 => exact forStatement_ensures hg heof
  case h_9 => exact whileStatement_ensures hg heof
  case h_10 => exact doStatement_ensures hg heof
  case h_11 => exact tryStatement_ensures hg heof
  case h_12 =>
    exact jumpStatement_ensures P heof (fun _ => ⟨rfl, rfl, rfl⟩)
  case h_13 =>
    exact jumpStatement_ensures P heof (fun _ => ⟨rfl, rfl, rfl⟩)
  case h_14 =>
    exact valueStatement_ensures hg heof (fun _ _ => ⟨rfl, rfl, rfl⟩)
  case h_15 =>
    exact valueStatement_ensures hg heof (fun _ _ => ⟨rfl, rfl, rfl⟩)
  case h_16 => exact throwStatement_ensures hg heof
  case h_17 => exact expressionStatement_ensures hg

/-- **A statement.** -/
theorem statementFrom_ensures :
    Ensures root (statementFrom g) ctx s
      (State.Reads (As root P .statement) s.here) := by
  refine .look s.current rfl (.of_good fun _ hs => ?_)
  split
  case h_1 k hk => exact keywordStatement_ensures hg hk
  case h_2 =>
    refine hg.block.bind fun b t _ hb => ?_
    exact .pure ⟨hb.1, hb.2.wrap rfl rfl rfl trivial⟩
  case h_3 hk =>
    have heof : s.current.isEof = false :=
      isEof_eq_false hk (fun h => nomatch h)
    refine (Ensures.lift (advance_ensures heof)).bind
      fun token t hst htook => .pure ?_
    exact hst.node hs.isCut_here htook.past rfl htook.span_eq
      (.nil hst.here_le) trivial
  case h_4 => exact expressionStatement_ensures hg

end Parse

/-! ## All levels -/

theorem State.ReadsRow.leave {α : Type} {R : α → Nat → Nat → Prop}
    {b : Nat} {xs : List α} {t : State} (h : State.ReadsRow R b xs t) :
    State.ReadsRow R b xs t.leave :=
  ⟨h.le, h.row⟩

/-- **A production between brackets** ensures what it does without
them. -/
theorem Parse.inBrackets_ensures {α : Type} {x : Parse α}
    {Q Q' : α → State → Prop}
    (hx : Ensures root x ctx.inBrackets s.enter Q)
    (hleave : ∀ a t, Q a t → Q' a t.leave) :
    Ensures root (inBrackets x) ctx s Q' :=
  .guarded (.withReader Context.Within.inBrackets hx) hleave

open Parse

/-- **One more level**: the productions over a sound grammar make a sound
grammar. -/
theorem Grammar.levels_succ_sound {n : Nat}
    (hg : (levels n).Sound root P)
    (hfolded : ∀ {min : Precedence} {ctx : Context} {s : State}
      {e : Expression} {t : State}, root.Within ctx → s.Good root →
      Folded (levels n) min ctx s e t → P e) :
    (levels (n + 1)).Sound root P where
  primary := hg.primary
  statement := (statementFrom_ensures hg).guarded (fun _ _ => id)
  block := (blockFrom_ensures hg).guarded (fun _ _ => id)
  expression := fun min _ _ =>
    (expressionFrom_ensures hg hfolded min).guarded (fun _ _ h => h.1)
  bracketed := fun point closer _ _ =>
    inBrackets_ensures (tolerant_ensures hg.mend_expression point
      (expressionBefore_ensures hg closer)) (fun _ _ => id)
  consequent := inBrackets_ensures (assignment_ensures hg) (fun _ _ => id)
  arguments :=
    inBrackets_ensures (callArguments_ensures hg) (fun _ _ => .leave)
  elements :=
    inBrackets_ensures (arrayElements_ensures hg) (fun _ _ => .leave)
  members :=
    inBrackets_ensures (objectMembers_ensures hg) (fun _ _ => .leave)
  methods :=
    inBrackets_ensures (classMethods_ensures hg) (fun _ _ => .leave)
  parameters :=
    inBrackets_ensures (parameterNames_ensures P) (fun _ _ => .leave)
  forHeader :=
    inBrackets_ensures (forHeader_ensures hg) (fun _ _ => .leave)
  catchParameter :=
    inBrackets_ensures (identifier_ensures P) (fun _ _ => id)
  importSpecifiers :=
    inBrackets_ensures
      (specifiers_ensures (fun _ => importSpecifier_ensures P))
      (fun _ _ => .leave)
  exportSpecifiers :=
    inBrackets_ensures
      (specifiers_ensures (fun _ => exportSpecifier_ensures P))
      (fun _ _ => .leave)

/-- **What an expression of a tree is**: no operation, or one that comes
from a fold in the same parse. -/
def Expression.Traces (root : Context) (e : Expression) : Prop :=
  e.isPrimary = true ∨ ∃ n min ctx s t, root.Within ctx ∧ s.Good root
    ∧ Folded (Grammar.levels n) min ctx s e t

/-- The expressions of a fold come from it. -/
theorem Folded.traces {n : Nat} {min : Precedence} {e : Expression}
    (hctx : root.Within ctx) (hs : s.Good root)
    (h : Folded (Grammar.levels n) min ctx s e t) : e.Traces root :=
  .inr ⟨n, min, ctx, s, t, hctx, hs, h⟩

/-- **A grammar of any number of levels reads what it should.** -/
theorem Grammar.levels_sound (root : Context) (n : Nat) :
    (levels n).Sound root (Expression.Traces root) := by
  induction n with
  | zero => exact exhausted_sound (fun e h => .inl h)
  | succ n ih => exact levels_succ_sound ih Folded.traces

end ScriptTree
