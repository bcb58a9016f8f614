import ScriptTree.Proofs.Account.Script
import ScriptTree.Proofs.Account.Statement
import ScriptTree.Proofs.Derive.Declaration
import ScriptTree.Proofs.Derive.Module

/-!
# All productions and their derivations

The clauses of a switch are statement lists of their own kind, and what
stands in front of them – the value that is looked for, the values of the
clauses – holds no statement, so it makes no difference to it.

A loop over an object or a collection keeps of a declaration the name only,
so the bindings are carried along without a node of their own until it is
known which kind of loop it is.

With the remaining statements the grammar is known as a whole: a grammar of
any number of levels derives what it reads (`Grammar.levels_derives`).

A script is read from one end of the text to the other, so its derivation is
one of all its statements, and a replay of its run is the parse of the other
text (`runScript_derives`).
-/

namespace ScriptTree

/-- **What is read of the first part of a header**, before it is known what
node is made of it. -/
def ForInit.found : ForInit → List Node
  | declaration d => d.declarators.flatMap Declarator.parts
  | expression e => [.expression e]

namespace Parse

open ScriptTree.Action State

variable {root ctx : Context} {R : Replay root} {K : Set Mark} {r s t : State}
  {g : Grammar}

/-- No expression is a statement. -/
theorem isStatement_expressions (es : List Expression) :
    ∀ n ∈ es.map Node.expression, n.isStatement = false := by
  intro n hn
  obtain ⟨e, _, rfl⟩ := List.mem_map.1 hn
  rfl

variable (hg : g.Derives R)

include hg

/-! ## Conditions -/

theorem alternative?_derives (hmatter : ctx.newlinesMatter = true) :
    Derives R ∅ (alternative? g) ctx s
      (fun K x? t => R.Yields ctx K s (x?.toList.map .statement) t) := by
  refine .ask (·.isKeyword .kwElse) (fun _ _ => rfl) (fun _ => rfl)
    (.ite (fun h => ?_) (fun _ => .pure (.refl _)))
  refine .pass (.refl ctx) (isEof_of_isKeyword h) fun hF => ?_
  exact ((statement_derives hg hmatter).after hF).bind
    fun K x u _ hF => .pure hF

theorem conditionalStatement_derives (hmatter : ctx.newlinesMatter = true)
    (heof : s.current.isEof = false) :
    Derives R ∅ (conditionalStatement g) ctx s
      (fun K x t => R.Yields ctx K s [.statement x] t) := by
  refine .opening heof (fun _ => rfl) fun hF => ?_
  refine (condition_freed hg hF).bind fun K test t _ ⟨hF, hfree⟩ => ?_
  refine ((statement_derives hg hmatter).after hF).grows.bind
    fun K' consequent u _ ⟨hK, hF⟩ => ?_
  refine ((alternative?_derives hg hmatter).after hF).grows.bind
    fun K'' x? v _ ⟨hK', hF⟩ => .span (.pure ?_)
  exact .wrapFreed hF rfl (fun _ => rfl) rfl
    (List.forall_mem_singleton.2 (hfree.mono (hK.trans hK')))

/-- **The value of a clause** holds no statement. -/
theorem caseTest_derives (hmatter : ctx.newlinesMatter = true) :
    Derives R ∅ (caseTest g) ctx s (fun K e? t =>
      R.Yields (ctx.inList .switchCase) K s
        (e?.toList.map .expression) t) := by
  refine .ask (·.isKeyword .kwCase) (fun _ _ => rfl) (fun _ => rfl)
    (.ite (fun h => ?_) (fun _ => ?_))
  · refine .pass (.refl ctx) (isEof_of_isKeyword h) fun hF => ?_
    exact ((expression_derives hg).after hF).bind fun K e u _ hF =>
      .pure (hF.inList hmatter (isStatement_expressions [e]) _)
  · refine .ask (·.isKeyword .kwDefault) (fun _ _ => rfl) (fun _ => rfl)
      (.ite (fun h => ?_) (fun _ => unexpected_derives _))
    exact .pass (.refl _) (isEof_of_isKeyword h) fun hF => .pure hF

/-- **A clause** is no node, but it has nodes. -/
theorem switchCase_derives (hmatter : ctx.newlinesMatter = true) :
    Derives R ∅ (switchCase g) ctx s
      (fun K c t => R.Yields (ctx.inList .switchCase) K s c.parts t) := by
  refine .here ?_
  refine (caseTest_derives hg hmatter).bind fun K test? t _ hF => ?_
  refine .skip (expectPunctuator_takes .colon) hF fun hF => ?_
  exact ((statementList_derives hg .switchCase).after hF).bind
    fun K xs u _ hF => .span (.pure hF)

theorem switchCasesFrom_derives (hmatter : ctx.newlinesMatter = true)
    (turns : Nat) (found : List SwitchCase)
    (hfound : R.Yields (ctx.inList .switchCase) K r
      (found.reverse.flatMap SwitchCase.parts) s) :
    Derives R K (switchCasesFrom g turns found) ctx s (fun K cs t =>
      R.Yields (ctx.inList .switchCase) K r
        (cs.flatMap SwitchCase.parts) t) := by
  induction turns generalizing s K found with
  | zero => exact .pure hfound
  | succ turns ih =>
    refine .ask (·.isPunctuator .rBrace) (fun _ _ => rfl) (fun _ => rfl)
      (.ite (fun _ => .pure hfound) (fun _ => ?_))
    exact ((switchCase_derives hg hmatter).after hfound).bind
      fun K c t _ hF => ih _ hF.concat

theorem switchStatement_derives (hmatter : ctx.newlinesMatter = true)
    (heof : s.current.isEof = false) :
    Derives R ∅ (switchStatement g) ctx s
      (fun K x t => R.Yields ctx K s [.statement x] t) := by
  refine .opening heof (fun _ => rfl) fun hF => ?_
  refine (condition_freed hg hF).bind
    fun K discriminant t _ ⟨hF, hfree⟩ => ?_
  have hF := hF.inList hmatter
    (isStatement_expressions [discriminant]) .switchCase
  refine .skip (expectPunctuator_takes .lBrace) hF fun hF => ?_
  refine .askContext rfl ?_
  refine ((switchCasesFrom_derives hg hmatter _ [] (.refl _)).after
    hF).grows.bind fun K' cases u _ ⟨hK, hF⟩ => ?_
  refine .skip (expectPunctuator_takes .rBrace) hF fun hF => ?_
  exact .span (.pure (.statement hF rfl hmatter.symm
    (List.forall_mem_singleton.2 (hfree.mono hK)) (fun _ => .of_none rfl)))

/-! ## Loops with a condition -/

theorem whileStatement_derives (hmatter : ctx.newlinesMatter = true)
    (heof : s.current.isEof = false) :
    Derives R ∅ (whileStatement g) ctx s
      (fun K x t => R.Yields ctx K s [.statement x] t) := by
  refine .opening heof (fun _ => rfl) fun hF => ?_
  refine (condition_freed hg hF).bind fun K test t _ ⟨hF, hfree⟩ => ?_
  refine ((statement_derives hg hmatter).after hF).grows.bind
    fun K' body u _ ⟨hK, hF⟩ => .span (.pure ?_)
  exact .wrapFreed hF rfl (fun _ => rfl) rfl
    (List.forall_mem_singleton.2 (hfree.mono hK))

theorem doStatement_derives (hmatter : ctx.newlinesMatter = true)
    (heof : s.current.isEof = false) :
    Derives R ∅ (doStatement g) ctx s
      (fun K x t => R.Yields ctx K s [.statement x] t) := by
  refine .opening heof (fun _ => rfl) fun hF => ?_
  refine (hg.block.after hF).bind fun K body t _ hF => ?_
  refine .skip (expectKeyword_takes .kwWhile) hF fun hF => ?_
  refine (condition_freed hg hF).bind fun K test u _ ⟨hF, hfree⟩ => ?_
  refine (terminator_derives false hmatter hF).grows.bind
    fun K' _ v _ ⟨hK, hF, hends⟩ => .span (.pure ?_)
  exact .statement hF rfl rfl (List.forall_mem_singleton.2 (hfree.mono hK))
    (fun hfits => .of_some rfl (hends hfits) rfl)

/-! ## Loops over a range -/

theorem headerPart_derives (closer : Punctuator) :
    Derives R ∅ (headerPart g closer) ctx s
      (fun K e t => R.Yields ctx K s [.expression e] t) :=
  tolerant_yields (expressionBefore_derives hg closer)
    (expressionBefore_accounts hg.gathers closer)

theorem optionalHeaderPart_derives (closer : Punctuator) :
    Derives R ∅ (optionalHeaderPart g closer) ctx s
      (fun K e? t => R.Yields ctx K s (e?.toList.map .expression) t) := by
  refine .ask (·.isPunctuator closer) (fun _ _ => rfl) (fun _ => rfl)
    (.ite (fun _ => .pure (.refl _)) (fun _ => ?_))
  exact (headerPart_derives hg closer).bind fun K e t _ hF => .pure hF

theorem headerInit_derives :
    Derives R ∅ (headerInit g) ctx s
      (fun K i? t => R.Yields ctx K s (i?.toList.flatMap ForInit.found) t) := by
  refine .current (fun _ => rfl) (.ite (fun _ => .pure (.refl _))
    (fun _ => .ite (fun h => ?_) (fun _ => ?_)))
  · obtain ⟨kind, hkind⟩ := Option.isSome_iff_exists.1 h
    refine (Derives.withReader Context.Within.withoutIn rfl
      (variableDeclaration_derives hg
        (isSilent_of_varKind? hkind).isEof_eq_false)).bind
      fun K d t _ hF => .pure ?_
    rw [Option.toList_some, List.flatMap_singleton]
    exact hF.withIn
  · exact (Derives.withReader Context.Within.withoutIn rfl
      (tolerant_yields (expression_derives hg)
        (expression_accounts hg.gathers))).bind
      fun K e t _ hF => .pure hF.withIn

omit hg in
/-- **The first part of a header** is a node of its own where a loop
counts. -/
theorem found_part {init? : Option ForInit}
    (h : R.Yields ctx K r (init?.toList.flatMap ForInit.found) s) :
    R.Yields ctx K r (init?.toList.map ForInit.part) s := by
  match init? with
  | none => exact h
  | some (.expression e) => exact h
  | some (.declaration d) =>
    rw [Option.toList_some, List.flatMap_singleton] at h
    exact .wrap (n := .declaration d) h rfl (fun _ => rfl) rfl rfl

omit hg in
/-- **What a loop sets** is an expression, be it the name of a variable. -/
theorem found_target {init? : Option ForInit} {left : Expression}
    (hleft : loopTarget? init? = some left)
    (h : R.Yields ctx K r (init?.toList.flatMap ForInit.found) s) :
    R.Yields ctx K r [.expression left] s := by
  unfold loopTarget? at hleft
  split at hleft
  · obtain rfl := Option.some.inj hleft
    exact h
  · rename_i d
    split at hleft
    · rename_i id span hd
      obtain rfl := Option.some.inj hleft
      rw [Option.toList_some, List.flatMap_singleton, ForInit.found, hd] at h
      exact .wrap h rfl (fun _ => rfl) rfl rfl
    · cases hleft
  · cases hleft

theorem eachHeader_derives {init? : Option ForInit}
    (heof : s.current.isEof = false)
    (hF : R.Yields ctx K r (init?.toList.flatMap ForInit.found) s) :
    Derives R K (eachHeader g init?) ctx s (fun K a t =>
      R.Yields ctx K r [.expression a.1, .expression a.2] t) := by
  unfold eachHeader
  split
  · exact unexpected_derives _
  · rename_i left hleft
    refine .pass (found_target hleft hF) heof fun hF => ?_
    exact ((headerPart_derives hg _).after hF).bind
      fun K right u _ hF => .pure hF

/-- **The header of a loop.** -/
theorem forHeader_derives :
    Derives R ∅ (forHeader g) ctx s
      (fun K header t => R.Yields ctx K s header.parts t) := by
  refine (headerInit_derives hg).bind fun K init? t _ hF => ?_
  dsimp only
  refine .ask (·.isKeyword .kwIn) (fun _ _ => rfl) (fun _ => rfl)
    (.ite (fun h => ?_) (fun _ => ?_))
  · exact (eachHeader_derives hg (isEof_of_isKeyword h) hF).bind
      fun K a u _ hF => .pure hF
  refine .ask (·.isWord "of") (fun _ _ => rfl) (fun _ => rfl)
    (.ite (fun h => ?_) (fun _ => ?_))
  · exact (eachHeader_derives hg (isEof_of_isWord h) hF).bind
      fun K a u _ hF => .pure hF
  refine .skip (expectPunctuator_takes .semicolon) (found_part hF)
    fun hF => ?_
  refine ((optionalHeaderPart_derives hg _).after hF).bind
    fun K test? v _ hF => ?_
  refine .skip (expectPunctuator_takes .semicolon) hF fun hF => ?_
  exact ((optionalHeaderPart_derives hg _).after hF).bind
    fun K update? w _ hF => .pure hF

theorem forStatement_derives (hmatter : ctx.newlinesMatter = true)
    (heof : s.current.isEof = false) :
    Derives R ∅ (forStatement g) ctx s
      (fun K x t => R.Yields ctx K s [.statement x] t) := by
  refine .opening heof (fun _ => rfl) fun hF => ?_
  refine .skip (expectPunctuator_takes .lParen) hF fun hF => ?_
  refine (Derives.freed (hg.forHeader.mono fun _ _ _ _ h => h.out)
    (hg.gathers.sound.forHeader.mono fun _ _ _ h => h.lies) hF).bind
    fun K header t _ ⟨hF, hfree⟩ => ?_
  refine .skip (expectPunctuator_takes .rParen) hF fun hF => ?_
  refine ((statement_derives hg hmatter).after hF).grows.bind
    fun K' body u _ ⟨hK, hF⟩ => .span (.pure ?_)
  have hfreed : ∀ p ∈ header.parts.map Node.span, p.FreeIn K' :=
    List.forall_mem_map.2 (fun n hn => (hfree n hn).mono hK)
  cases header with
  | counting | overKeys | overValues =>
    exact .wrapFreed hF rfl (fun _ => rfl) rfl hfreed

end Parse

end ScriptTree

namespace ScriptTree

variable {root ctx : Context} {R : Replay root} {K : Set Mark} {r s : State}
  {α : Type}

/-- **A statement that may be the last of its list** without a terminator,
with what is below it and where it stands. -/
structure Statement.Trails (x : Statement) (ns : List Node) (span : Span) :
    Prop where
  /-- This is below it. -/
  children_eq : x.children = ns
  /-- It has to be ended otherwise. -/
  terminator?_eq : x.terminator? = some true
  /-- It stands there. -/
  span_eq : x.span = span
  /-- It is no statement list. -/
  inside_eq : ∀ e, (Node.statement x).inside e = e
  /-- Nothing of it is read between brackets. -/
  freed_eq : (Node.statement x).freed = []

/-- **Such a statement comes out of a run** with what is below it. -/
theorem Statement.Trails.yields {x : Statement} {ns : List Node}
    {t : State} (hx : x.Trails ns (t.spanFrom r.here))
    (h : R.Yields ctx K r ns t)
    (hends : R.Fits t → t.EndsStatement ctx.listEnd true) :
    R.Yields ctx K r [.statement x] t := by
  refine .statement ?_ (hx.inside_eq _) rfl (Node.freeIn_of_nil hx.freed_eq)
    (fun hfits => .of_some hx.terminator?_eq (hends hfits) hx.span_eq)
  rw [hx.children_eq]
  exact h

namespace Parse

open ScriptTree.Action State

variable {g : Grammar}

section Productions

variable (hg : g.Derives R)

include hg

/-! ## Blocks -/

/-- **A block** stands between braces, and line breaks matter in it. -/
theorem blockFrom_derives :
    Derives R ∅ (blockFrom g) ctx s
      (fun K b t => R.Yields ctx K s [.block b] t) := by
  refine .take (expectPunctuator_takes .lBrace) (fun _ => rfl)
    fun hopener => ?_
  refine (statementList_derives hg .brace).bind fun K body t _ hbody => ?_
  refine .takeOff (expectPunctuator_takes .rBrace) fun hcloser => ?_
  have hblock : R.Encloses (ctx.inList .brace) K s (body.map .statement)
      (t.bump root) := ⟨hopener, t, hcloser, rfl, hbody⟩
  exact .span (.pure (hblock.node rfl (fun _ => rfl) rfl rfl))

/-! ## Exceptions -/

theorem catchParameter?_derives (hF : R.Yields ctx K r [] s) :
    Derives R K (catchParameter? g) ctx s (fun K id? t =>
      R.Yields ctx K r (id?.toList.map .identifier) t) := by
  refine (eat_yields .lParen hF).bind fun K _ t _ hF => ?_
  refine .ite (fun _ => ?_) (fun _ => .pure hF)
  refine (hg.catchParameter.behind hF).bind fun K param u _ hF => ?_
  exact .skip (expectPunctuator_takes .rParen) hF fun hF => .pure hF

theorem catchClause?_derives :
    Derives R ∅ (catchClause? g) ctx s (fun K c? t =>
      R.Yields ctx K s ((c?.map CatchClause.parts).getD []) t) := by
  refine .ask (·.isKeyword .kwCatch) (fun _ _ => rfl) (fun _ => rfl)
    (.ite (fun h => ?_) (fun _ => .pure (.refl _)))
  have heof := isEof_of_isKeyword h
  refine .opening heof (fun _ => rfl) fun hF => ?_
  refine (catchParameter?_derives hg hF).bind fun K param? t _ hF => ?_
  exact (hg.block.after hF).bind fun K body u _ hF => .span (.pure hF)

theorem finallyBlock?_derives :
    Derives R ∅ (finallyBlock? g) ctx s
      (fun K b? t => R.Yields ctx K s (b?.toList.map .block) t) := by
  refine .ask (·.isKeyword .kwFinally) (fun _ _ => rfl) (fun _ => rfl)
    (.ite (fun h => ?_) (fun _ => .pure (.refl _)))
  refine .pass (.refl ctx) (isEof_of_isKeyword h) fun hF => ?_
  exact (hg.block.after hF).bind fun K body t _ hF => .pure hF

theorem tryStatement_derives (heof : s.current.isEof = false) :
    Derives R ∅ (tryStatement g) ctx s
      (fun K x t => R.Yields ctx K s [.statement x] t) := by
  refine .opening heof (fun _ => rfl) fun hF => ?_
  refine (hg.block.after hF).bind fun K body t _ hF => ?_
  refine ((catchClause?_derives hg).after hF).bind
    fun K handler? u _ hF => ?_
  refine ((finallyBlock?_derives hg).after hF).bind
    fun K finalizer? v _ hF => .span (.pure
      (.wrap ?_ rfl (fun _ => rfl) rfl rfl))
  rw [List.append_assoc] at hF
  exact hF

/-! ## Statements with a value -/

omit hg in
theorem jumpStatement_derives {make : Span → Statement}
    (hmake : ∀ span, (make span).Trails [] span)
    (hmatter : ctx.newlinesMatter = true) (heof : s.current.isEof = false) :
    Derives R ∅ (jumpStatement make) ctx s
      (fun K x t => R.Yields ctx K s [.statement x] t) := by
  refine .opening heof (fun _ => rfl) fun hF => ?_
  exact (terminator_derives true hmatter hF).bind
    fun K _ t _ ⟨hF, hends⟩ => .span (.pure ((hmake _).yields hF hends))

theorem optionalValue_derives (hmatter : ctx.newlinesMatter = true)
    (hF : R.Yields ctx K r [] s) :
    Derives R K (optionalValue g) ctx s (fun K e? t =>
      R.Yields ctx K r (e?.toList.map .expression) t) :=
  atStatementEnd_derives hmatter hF fun _ _ hF =>
    .ite (fun _ => .pure hF) (fun _ =>
      ((expression_derives hg).after hF).bind fun _ _ _ _ hF => .pure hF)

theorem valueStatement_derives
    {make : Option Expression → Span → Statement}
    (hmake : ∀ e? span,
      (make e? span).Trails (e?.toList.map .expression) span)
    (hmatter : ctx.newlinesMatter = true) (heof : s.current.isEof = false) :
    Derives R ∅ (valueStatement g make) ctx s
      (fun K x t => R.Yields ctx K s [.statement x] t) := by
  refine .opening heof (fun _ => rfl) fun hF => ?_
  refine (optionalValue_derives hg hmatter hF).bind fun K e? t _ hF => ?_
  exact (terminator_derives true hmatter hF).bind
    fun K _ u _ ⟨hF, hends⟩ => .span (.pure ((hmake _ _).yields hF hends))

theorem throwStatement_derives (hmatter : ctx.newlinesMatter = true)
    (heof : s.current.isEof = false) :
    Derives R ∅ (throwStatement g) ctx s
      (fun K x t => R.Yields ctx K s [.statement x] t) := by
  refine .opening heof (fun _ => rfl) fun hF => ?_
  refine ((expression_derives hg).after hF).bind fun K e t _ hF => ?_
  exact (terminator_derives true hmatter hF).bind
    fun K _ u _ ⟨hF, hends⟩ => .span (.pure (.statement hF rfl rfl
      (Node.freeIn_of_nil rfl) (fun hfits => .of_some rfl (hends hfits) rfl)))

/-! ## Any statement -/

theorem keywordStatement_derives (k : Keyword)
    (hmatter : ctx.newlinesMatter = true) (heof : s.current.isEof = false) :
    Derives R ∅ (keywordStatement g k) ctx s
      (fun K x t => R.Yields ctx K s [.statement x] t) := by
  unfold keywordStatement
  split
  case h_1 => exact exportStatement_derives hg hmatter heof
  case h_2 => exact importStatement_derives hg hmatter heof
  case h_3 => exact declarationStatement_derives hg hmatter heof
  case h_4 => exact declarationStatement_derives hg hmatter heof
  case h_5 => exact declarationStatement_derives hg hmatter heof
  case h_6 => exact conditionalStatement_derives hg hmatter heof
  case h_7 => exact switchStatement_derives hg hmatter heof
  case h_8 => exact forStatement_derives hg hmatter heof
  case h_9 => exact whileStatement_derives hg hmatter heof
  case h_10 => exact doStatement_derives hg hmatter heof
  case h_11 => exact tryStatement_derives hg heof
  case h_12 =>
    exact jumpStatement_derives (fun _ => ⟨rfl, rfl, rfl, fun _ => rfl, rfl⟩)
      hmatter heof
  case h_13 =>
    exact jumpStatement_derives (fun _ => ⟨rfl, rfl, rfl, fun _ => rfl, rfl⟩)
      hmatter heof
  case h_14 =>
    exact valueStatement_derives hg
      (fun _ _ => ⟨rfl, rfl, rfl, fun _ => rfl, rfl⟩) hmatter heof
  case h_15 =>
    exact valueStatement_derives hg
      (fun _ _ => ⟨rfl, rfl, rfl, fun _ => rfl, rfl⟩) hmatter heof
  case h_16 => exact throwStatement_derives hg hmatter heof
  case h_17 => exact expressionStatement_derives hg hmatter

/-- **A statement** comes out of its run. -/
theorem statementFrom_derives (hmatter : ctx.newlinesMatter = true) :
    Derives R ∅ (statementFrom g) ctx s
      (fun K x t => R.Yields ctx K s [.statement x] t) := by
  refine .current (fun _ => rfl) ?_
  split
  case h_1 k hk =>
    exact keywordStatement_derives hg k hmatter
      (isEof_eq_false hk (by simp))
  case h_2 =>
    exact hg.block.bind fun K b t _ hF =>
      .pure (.wrap hF rfl (fun _ => rfl) rfl rfl)
  case h_3 hk =>
    have heof := isEof_eq_false hk (by simp)
    exact .advance heof (fun _ => rfl) (.pure
      (.wrap (.token heof) rfl (fun _ => rfl) rfl rfl))
  case h_4 => exact expressionStatement_derives hg hmatter

end Productions

/-! ## All levels -/

/-- **A production that counts as a level** derives what it does without
being one. -/
theorem guarded_derives {ctx' : Context} {p : Parse α}
    {parts : α → List Node}
    (hp : Derives R ∅ p ctx s.enter
      (fun K a t => R.Yields ctx' K s.enter (parts a) t)) :
    Derives R ∅ (guarded p) ctx s
      (fun K a t => R.Yields ctx' K s (parts a) t) :=
  .guarded hp (fun _ _ _ hs ht h => h.leave hs ht)

/-- **A production between brackets** derives what it does there. -/
theorem inBrackets_derives {p : Parse α} {parts : α → List Node}
    (hp : Derives R ∅ p ctx.inBrackets s.enter
      (fun K a t => R.Yields ctx.inBrackets K s.enter (parts a) t)) :
    Derives R ∅ (inBrackets p) ctx s
      (fun K a t => R.Yields ctx.inBrackets K s (parts a) t) :=
  guarded_derives (.withReader Context.Within.inBrackets rfl hp)

end Parse

open Parse

/-- **A grammar of any number of levels derives what it reads.** -/
theorem Grammar.levels_derives (R : Replay root) (n : Nat) :
    (levels n).Derives R := by
  induction n with
  | zero => exact exhausted_derives
  | succ n hg =>
    exact
      { gathers := levels_gathers root (n + 1)
        statement := fun hmatter =>
          guarded_derives (statementFrom_derives hg hmatter)
        block := guarded_derives (blockFrom_derives hg)
        expression := fun min _ _ =>
          guarded_derives (expressionFrom_derives hg min)
        bracketed := fun point closer _ _ => inBrackets_derives
          (tolerant_yields (expressionBefore_derives hg closer)
            (expressionBefore_accounts hg.gathers closer))
        consequent := inBrackets_derives (assignment_derives hg)
        arguments := inBrackets_derives (callArguments_derives hg)
        elements := inBrackets_derives (arrayElements_derives hg)
        members := inBrackets_derives (objectMembers_derives hg)
        methods := inBrackets_derives (classMethods_derives hg)
        parameters := inBrackets_derives parameterNames_derives
        forHeader := inBrackets_derives (forHeader_derives hg)
        catchParameter := inBrackets_derives identifier_derives
        importSpecifiers := inBrackets_derives
          (specifiers_derives (fun _ => importSpecifier_derives))
        exportSpecifiers := inBrackets_derives
          (specifiers_derives (fun _ => exportSpecifier_derives)) }

/-! ## A whole script -/

open State

namespace Parse

/-- A script that holds no token is something to complain about. -/
theorem reportEmpty_not_quiet :
    Action.Accounts root reportEmpty root s (fun _ t => ¬t.Quiet root) := by
  intro hctx hs
  exact ⟨(reportEmpty_accounts hctx hs).1, not_quiet_report _ _ _ _⟩

/-- **A whole script** comes out of its run. -/
theorem script_derives {g : Grammar} (hg : g.Derives R)
    (hroot : root.inList .eof = root) :
    Derives R ∅ (liftM (script g)) root s
      (fun K xs t => R.Yields root K s (xs.map .statement) t) := by
  have hlist : Derives R ∅ (statementList g .eof) root s _ :=
    statementList_derives hg .eof
  rw [hroot] at hlist
  unfold script
  simp only [lift_bind, lift_ite]
  refine .current (fun _ => rfl) (hlist.bind fun K xs t _ hxs => ?_)
  refine .ite (fun _ => ?_) (fun _ => .pure hxs)
  refine Derives.bind (.unfit (.lift reportEmpty_not_quiet)
    (Q := fun K _ u => R.Yields root K s (xs.map .statement) u) ?_)
    fun K _ u _ hu => .pure hu
  exact fun _ _ htu hunfit => .of_unfit (hxs.acts.trans htu) hunfit

end Parse

variable {options : Options} {table : OperatorTable} {source : List Char}

/-- **The run of a parse** derives its statements. Unless the texts differ
in one of the gaps that were consulted, the parse of the other text has the
same statements and ends beside it. -/
theorem runScript_derives (R : Replay (.ofSource source options table)) :
    ∃ K, R.Yields (.ofSource source options table) K
        (initial (.ofSource source options table))
        ((runScript source options table).1.map .statement)
        (runScript source options table).2
      ∧ (R.Fits (runScript source options table).2 → R.Clear K →
        R.Beside (initial (.ofSource source options table))
          (initial (.ofSource R.other options table)) →
        (runScript R.other options table).1 = (runScript source options
            table).1
          ∧ R.Beside (runScript source options table).2
            (runScript R.other options table).2) := by
  have hother : Context.ofSource R.other options table
      = R.reflect (.ofSource source options table) := by
    unfold Context.ofSource Replay.reflect
    rw [R.byteLength_eq]
    rfl
  obtain ⟨_, K, _, hyields, hsame⟩ := Parse.script_derives
    (Grammar.levels_derives R options.maxNestingDepth) rfl (.refl _) .refl
    (runScript source options table).1 (runScript source options table).2 rfl
  refine ⟨K, hyields, fun hfits hclear hbeside => ?_⟩
  rw [hother] at hbeside
  obtain ⟨t', hrun, hend⟩ := hsame hfits hclear _ hbeside
  rw [← hother] at hrun
  have hrun : ((.ok (runScript R.other options table).1,
      (runScript R.other options table).2) : Except ParseError _ × State)
      = (.ok (runScript source options table).1, t') := hrun
  obtain ⟨hbody, hstate⟩ := Prod.mk.inj hrun
  rw [hstate]
  exact ⟨Except.ok.inj hbody, hend⟩

end ScriptTree
