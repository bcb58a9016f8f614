import ScriptTree.Parse.Levels
import ScriptTree.Parse.Loop
import ScriptTree.Proofs.Account.Declaration
import ScriptTree.Proofs.Account.Module
import ScriptTree.Proofs.Parse.Statement

/-!
# All productions and their tokens

A loop over an object or a collection keeps of a declaration the name only,
and the name is all that was to be kept.

With the remaining statements the grammar is known as a whole: a grammar of
any number of levels accounts for what it reads (`Grammar.levels_gathers`).
-/

namespace ScriptTree.Parse

open ScriptTree.Action State

variable {root ctx : Context} {s : State} {g : Grammar}
  (hg : g.Gathers root)

include hg

/-! ## Conditions -/

/-- The other branch of a condition: its word is silent. -/
theorem alternative?_accounts :
    Accounts root (alternative? g) ctx s
      (fun x? t => s.Gathers root (x?.toList.map .statement) t) := by
  refine .look (s.current.isKeyword .kwElse) rfl
    (.ite (fun h => ?_) (fun _ => .pure (.refl root s)))
  refine (Accounts.lift (pass_accounts
    (Token.isSilent_of_isKeyword h))).bind fun _ t _ ht => ?_
  exact (statement_accounts hg).bind fun x u _ hx => .pure (ht.trans hx)

/-- **A condition** gathers what is tested and the branches. -/
theorem conditionalStatement_accounts (hsilent : s.current.IsSilent) :
    Accounts root (conditionalStatement g) ctx s
      (fun x t => s.Gathers root [.statement x] t) := by
  refine (Accounts.lift (skip_accounts hsilent)).bind fun _ t _ ht => ?_
  refine (condition_accounts hg).bind fun test u _ htest => ?_
  refine (statement_accounts hg).bind fun consequent v _ hconsequent => ?_
  refine (alternative?_accounts hg).bind fun x? w _ hx => ?_
  refine .look (w.spanFrom _) rfl (.pure (.wrap ?_ rfl))
  exact (ht.2.trans htest).trans (hconsequent.trans hx)

/-- What a clause is for, or the word for the default clause. -/
theorem caseTest_accounts :
    Accounts root (caseTest g) ctx s
      (fun e? t => s.Gathers root (e?.toList.map .expression) t) := by
  refine .look (s.current.isKeyword .kwCase) rfl
    (.ite (fun h => ?_) (fun _ => ?_))
  · refine (Accounts.lift (pass_accounts
      (Token.isSilent_of_isKeyword h))).bind fun _ t _ ht => ?_
    exact (expression_accounts hg).bind fun e u _ he => .pure (ht.trans he)
  · refine .look (s.current.isKeyword .kwDefault) rfl
      (.ite (fun h => ?_) (fun _ => unexpected_accounts _))
    exact (Accounts.lift (pass_accounts
      (Token.isSilent_of_isKeyword h))).bind fun _ t _ ht => .pure ht

/-- **A clause** is no node, but it has nodes. -/
theorem switchCase_accounts :
    Accounts root (switchCase g) ctx s
      (fun c t => s.Gathers root c.parts t) := by
  refine .look s.here rfl ?_
  refine (caseTest_accounts hg).bind fun test? t _ htest => ?_
  refine (expectPunctuator_accounts .colon).discard.bind
    fun _ u _ hu => ?_
  refine (Accounts.lift (statementList_accounts hg .switchCase)).bind
    fun xs v _ hxs => ?_
  exact .look (v.spanFrom s.here) rfl (.pure ((htest.later hu).trans hxs))

/-- The loop over the clauses of a switch. -/
theorem switchCasesFrom_accounts (turns : Nat) {r : State}
    {found : List SwitchCase}
    (hfound : r.Gathers root (found.reverse.flatMap SwitchCase.parts) s) :
    Accounts root (switchCasesFrom g turns found) ctx s
      (fun cs t => r.Gathers root (cs.flatMap SwitchCase.parts) t) := by
  induction turns generalizing s found with
  | zero => exact .pure hfound
  | succ turns ih =>
    refine .look (s.current.isPunctuator .rBrace) rfl
      (.ite (fun _ => .pure hfound) (fun _ => ?_))
    exact (switchCase_accounts hg).bind fun c t _ hc => ih (hfound.concat hc)

/-- A choice gathers what is compared and the clauses. -/
theorem switchStatement_accounts (hsilent : s.current.IsSilent) :
    Accounts root (switchStatement g) ctx s
      (fun x t => s.Gathers root [.statement x] t) := by
  refine (Accounts.lift (skip_accounts hsilent)).bind fun _ t _ ht => ?_
  refine (condition_accounts hg).bind fun discriminant u _ hdisc => ?_
  refine (expectPunctuator_accounts .lBrace).discard.bind
    fun _ v _ hv => ?_
  refine .look ctx rfl ?_
  refine (switchCasesFrom_accounts hg _ (.refl root v)).bind
    fun cases w _ hcases => ?_
  refine (expectPunctuator_accounts .rBrace).discard.bind
    fun _ x _ hx => ?_
  refine .look (x.spanFrom _) rfl (.pure (.wrap ?_ rfl))
  exact (ht.2.trans (hdisc.later hv)).trans (hcases.later hx)

/-! ## Loops with a condition -/

/-- A loop with its condition in front. -/
theorem whileStatement_accounts (hsilent : s.current.IsSilent) :
    Accounts root (whileStatement g) ctx s
      (fun x t => s.Gathers root [.statement x] t) := by
  refine (Accounts.lift (skip_accounts hsilent)).bind fun _ t _ ht => ?_
  refine (condition_accounts hg).bind fun test u _ htest => ?_
  refine (statement_accounts hg).bind fun body v _ hbody => ?_
  refine .look (v.spanFrom _) rfl (.pure (.wrap ?_ rfl))
  exact ht.2.trans (htest.trans hbody)

/-- A loop with its condition behind. -/
theorem doStatement_accounts (hsilent : s.current.IsSilent) :
    Accounts root (doStatement g) ctx s
      (fun x t => s.Gathers root [.statement x] t) := by
  refine (Accounts.lift (skip_accounts hsilent)).bind fun _ t _ ht => ?_
  refine hg.block.bind fun body u _ hbody => ?_
  refine (expectKeyword_accounts _).discard.bind fun _ v _ hv => ?_
  refine (condition_accounts hg).bind fun test w _ htest => ?_
  refine (Accounts.lift (terminator_accounts false)).bind
    fun _ x _ hx => ?_
  refine .look (x.spanFrom _) rfl (.pure (.wrap ?_ rfl))
  exact (ht.2.trans (hbody.later hv)).trans (htest.later hx)

/-! ## Loops over a range -/

/-- A part of a header is a tolerant point. -/
theorem headerPart_accounts (closer : Punctuator) :
    Accounts root (headerPart g closer) ctx s
      (fun e t => s.Gathers root [.expression e] t) :=
  tolerant_accounts .forHeader (expressionBefore_accounts hg closer)

theorem optionalHeaderPart_accounts (closer : Punctuator) :
    Accounts root (optionalHeaderPart g closer) ctx s
      (fun e? t => s.Gathers root (e?.toList.map .expression) t) := by
  refine .look (s.current.isPunctuator closer) rfl
    (.ite (fun _ => .pure (.refl root s)) (fun _ => ?_))
  exact (headerPart_accounts hg closer).bind fun e t _ he => .pure he

/-- The first part of a header, of either kind. -/
theorem headerInit_accounts :
    Accounts root (headerInit g) ctx s
      (fun i? t => s.Gathers root (i?.toList.map ForInit.part) t) := by
  refine .look s.current rfl
    (.ite (fun _ => .pure (.refl root s)) (fun _ => ?_))
  refine .ite (fun h => ?_) (fun _ => ?_)
  · obtain ⟨kind, hkind⟩ := Option.isSome_iff_exists.1 h
    refine (Accounts.withReader Context.Within.withoutIn
      (variableDeclaration_accounts hg (isSilent_of_varKind? hkind))).bind
      fun ⟨kind, declarators, span⟩ t _ hd => ?_
    exact .pure (hd span)
  · refine (Accounts.withReader Context.Within.withoutIn
      (tolerant_accounts .forHeader (expression_accounts hg))).bind
      fun e t _ he => ?_
    exact .pure he

omit hg in
/-- **What a loop sets** has the leaves of the first part of its header. -/
theorem leaves_of_loopTarget? {init? : Option ForInit} {left : Expression}
    (h : loopTarget? init? = some left) :
    ([.expression left] : List Node).flatMap Node.leaves
      = (init?.toList.map ForInit.part).flatMap Node.leaves := by
  unfold loopTarget? at h
  split at h
  · obtain rfl := Option.some.inj h
    rfl
  · rename_i d
    split at h
    · rename_i id span hd
      obtain rfl := Option.some.inj h
      have hchildren : (ForInit.declaration d).part.children
          = [.identifier id] := by
        rw [ForInit.part, Node.children, hd]
        rfl
      show [Node.expression (.identifier id)].flatMap Node.leaves
        = [(ForInit.declaration d).part].flatMap Node.leaves
      rw [List.flatMap_singleton, List.flatMap_singleton,
        Node.leaves_of_leaf?_eq_none rfl, Node.leaves_of_leaf?_eq_none rfl,
        hchildren]
      rfl
    · cases h
  · cases h

/-- **A header for a range** gathers what the loop assigns to, which has been
read as something else, and the range. -/
theorem eachHeader_accounts {init? : Option ForInit}
    (hsilent : s.current.IsSilent) {r : State}
    (hinit : r.Gathers root (init?.toList.map ForInit.part) s) :
    Accounts root (eachHeader g init?) ctx s (fun a t =>
      r.Gathers root [.expression a.1, .expression a.2] t) := by
  unfold eachHeader
  split
  · exact unexpected_accounts _
  · rename_i left hleft
    refine (Accounts.lift (pass_accounts hsilent)).bind fun _ t _ ht => ?_
    refine (headerPart_accounts hg _).bind
      fun right u _ hright => .pure ?_
    have hleft := hinit.of_leaves (leaves_of_loopTarget? hleft)
    exact (hleft.later ht).trans hright

/-- **The header of a loop.** -/
theorem forHeader_accounts :
    Accounts root (forHeader g) ctx s
      (fun header t => s.Gathers root header.parts t) := by
  refine (headerInit_accounts hg).bind fun init? t _ hinit => ?_
  dsimp only
  refine .look (t.current.isKeyword .kwIn) rfl
    (.ite (fun h => ?_) (fun _ => ?_))
  · exact (eachHeader_accounts hg (Token.isSilent_of_isKeyword h)
      hinit).bind fun a u _ ha => .pure ha
  refine .look (t.current.isWord "of") rfl
    (.ite (fun h => ?_) (fun _ => ?_))
  · exact (eachHeader_accounts hg (Token.isSilent_of_isWord h (by decide))
      hinit).bind fun a u _ ha => .pure ha
  refine (expectPunctuator_accounts .semicolon).discard.bind
    fun _ u _ hu => ?_
  refine (optionalHeaderPart_accounts hg _).bind
    fun test? v _ htest => ?_
  refine (expectPunctuator_accounts .semicolon).discard.bind
    fun _ w _ hw => ?_
  refine (optionalHeaderPart_accounts hg _).bind
    fun update? x _ hupdate => .pure ?_
  exact (((hinit.later hu).trans htest).later hw).trans hupdate

/-- A loop gathers its header and its body. -/
theorem forStatement_accounts (hsilent : s.current.IsSilent) :
    Accounts root (forStatement g) ctx s
      (fun x t => s.Gathers root [.statement x] t) := by
  refine (Accounts.lift (skip_accounts hsilent)).bind fun _ t _ ht => ?_
  refine (expectPunctuator_accounts .lParen).discard.bind
    fun _ u _ hu => ?_
  refine hg.forHeader.bind fun header v _ hheader => ?_
  refine (expectPunctuator_accounts .rParen).discard.bind
    fun _ w _ hw => ?_
  refine (statement_accounts hg).bind fun body x _ hbody => ?_
  refine .look (x.spanFrom _) rfl (.pure ?_)
  have hparts := (ht.2.trans hu).trans ((hheader.later hw).trans hbody)
  cases header with
  | counting | overKeys | overValues => exact .wrap hparts rfl

end ScriptTree.Parse

namespace ScriptTree

variable {root ctx : Context} {s : State} {α : Type}

namespace Parse

open ScriptTree.Action State

variable {g : Grammar}

section Productions

variable (hg : g.Gathers root)

include hg

/-! ## Blocks -/

/-- A block gathers its statements; the braces are silent. -/
theorem blockFrom_accounts :
    Accounts root (blockFrom g) ctx s
      (fun b t => s.Gathers root [.block b] t) := by
  refine (expectPunctuator_accounts _).bind fun opening t _ ht => ?_
  refine (Accounts.lift (statementList_accounts hg .brace)).bind
    fun body u _ hbody => ?_
  refine (expectPunctuator_accounts .rBrace).discard.bind
    fun _ v _ hv => ?_
  refine .look (v.spanFrom opening.span.start) rfl (.pure (.wrap ?_ rfl))
  exact ht.trans (hbody.later hv)

/-! ## Exceptions -/

theorem catchParameter?_accounts :
    Accounts root (catchParameter? g) ctx s
      (fun id? t => s.Gathers root (id?.toList.map .identifier) t) := by
  refine (Accounts.lift (eat_accounts .lParen)).bind fun _ t _ ht => ?_
  refine .ite (fun _ => ?_) (fun _ => .pure ht)
  refine hg.catchParameter.bind fun param u _ hparam => ?_
  refine (expectPunctuator_accounts .rParen).discard.bind
    fun _ v _ hv => ?_
  exact .pure (ht.trans (hparam.later hv))

/-- What is done about an exception gathers the name for it, if it has one. -/
theorem catchClause?_accounts :
    Accounts root (catchClause? g) ctx s (fun c? t =>
      s.Gathers root ((c?.map CatchClause.parts).getD []) t) := by
  refine .look (s.current.isKeyword .kwCatch) rfl
    (.ite (fun h => ?_) (fun _ => .pure (.refl root s)))
  refine (Accounts.lift (skip_accounts
    (Token.isSilent_of_isKeyword h))).bind fun _ t _ ht => ?_
  refine (catchParameter?_accounts hg).bind fun param? u _ hparam => ?_
  refine hg.block.bind fun body v _ hbody => ?_
  refine .look (v.spanFrom _) rfl (.pure ?_)
  exact ht.2.trans (hparam.trans hbody)

theorem finallyBlock?_accounts :
    Accounts root (finallyBlock? g) ctx s
      (fun b? t => s.Gathers root (b?.toList.map .block) t) := by
  refine .look (s.current.isKeyword .kwFinally) rfl
    (.ite (fun h => ?_) (fun _ => .pure (.refl root s)))
  refine (Accounts.lift (pass_accounts
    (Token.isSilent_of_isKeyword h))).bind fun _ t _ ht => ?_
  exact hg.block.bind fun body u _ hbody => .pure (ht.trans hbody)

/-- A block with what is done about exceptions. -/
theorem tryStatement_accounts (hsilent : s.current.IsSilent) :
    Accounts root (tryStatement g) ctx s
      (fun x t => s.Gathers root [.statement x] t) := by
  refine (Accounts.lift (skip_accounts hsilent)).bind fun _ t _ ht => ?_
  refine hg.block.bind fun body u _ hbody => ?_
  refine (catchClause?_accounts hg).bind fun handler? v _ hhandler => ?_
  refine (finallyBlock?_accounts hg).bind
    fun finalizer? w _ hfinalizer => ?_
  refine .look (w.spanFrom _) rfl (.pure (.wrap ?_ rfl))
  exact ht.2.trans (hbody.trans (hhandler.trans hfinalizer))

/-! ## Statements with a value -/

omit hg in
/-- The way out of a loop gathers nothing. -/
theorem jumpStatement_accounts {make : Span → Statement}
    (hmake : ∀ span, (make span).children = [])
    (hsilent : s.current.IsSilent) :
    Accounts root (jumpStatement make) ctx s
      (fun x t => s.Gathers root [.statement x] t) := by
  refine (Accounts.lift (skip_accounts hsilent)).bind fun _ t _ ht => ?_
  refine (Accounts.lift (terminator_accounts true)).bind
    fun _ u _ hu => ?_
  refine .look (u.spanFrom _) rfl (.pure (.wrap ?_ rfl))
  rw [Node.children, hmake]
  exact ht.2.trans hu

theorem optionalValue_accounts :
    Accounts root (optionalValue g) ctx s
      (fun e? t => s.Gathers root (e?.toList.map .expression) t) := by
  refine .look (s.current.isPunctuator .semicolon || s.newlineBefore
    || s.atListEnd ctx) rfl
    (.ite (fun _ => .pure (.refl root s)) (fun _ => ?_))
  exact (expression_accounts hg).bind fun e t _ he => .pure he

/-- A value handed out gathers the value, or nothing. -/
theorem valueStatement_accounts
    {make : Option Expression → Span → Statement}
    (hmake : ∀ e? span, (make e? span).children = e?.toList.map .expression)
    (hsilent : s.current.IsSilent) :
    Accounts root (valueStatement g make) ctx s
      (fun x t => s.Gathers root [.statement x] t) := by
  refine (Accounts.lift (skip_accounts hsilent)).bind fun _ t _ ht => ?_
  refine (optionalValue_accounts hg).bind fun e? u _ he => ?_
  refine (Accounts.lift (terminator_accounts true)).bind
    fun _ v _ hv => ?_
  refine .look (v.spanFrom _) rfl (.pure (.wrap ?_ rfl))
  rw [Node.children, hmake]
  exact ht.2.trans (he.later hv)

theorem throwStatement_accounts (hsilent : s.current.IsSilent) :
    Accounts root (throwStatement g) ctx s
      (fun x t => s.Gathers root [.statement x] t) := by
  refine (Accounts.lift (skip_accounts hsilent)).bind fun _ t _ ht => ?_
  refine (expression_accounts hg).bind fun e u _ he => ?_
  refine (Accounts.lift (terminator_accounts true)).bind
    fun _ v _ hv => ?_
  refine .look (v.spanFrom _) rfl (.pure (.wrap ?_ rfl))
  exact ht.2.trans (he.later hv)

/-! ## Any statement -/

/-- **What a reserved word begins**, word by word; the word itself is silent.
-/
theorem keywordStatement_accounts (k : Keyword)
    (hsilent : s.current.IsSilent) :
    Accounts root (keywordStatement g k) ctx s
      (fun x t => s.Gathers root [.statement x] t) := by
  unfold keywordStatement
  split
  case h_1 => exact exportStatement_accounts hg hsilent
  case h_2 => exact importStatement_accounts hg hsilent
  case h_3 => exact declarationStatement_accounts hg hsilent
  case h_4 => exact declarationStatement_accounts hg hsilent
  case h_5 => exact declarationStatement_accounts hg hsilent
  case h_6 => exact conditionalStatement_accounts hg hsilent
  case h_7 => exact switchStatement_accounts hg hsilent
  case h_8 => exact forStatement_accounts hg hsilent
  case h_9 => exact whileStatement_accounts hg hsilent
  case h_10 => exact doStatement_accounts hg hsilent
  case h_11 => exact tryStatement_accounts hg hsilent
  case h_12 => exact jumpStatement_accounts (fun _ => rfl) hsilent
  case h_13 => exact jumpStatement_accounts (fun _ => rfl) hsilent
  case h_14 => exact valueStatement_accounts hg (fun _ _ => rfl) hsilent
  case h_15 => exact valueStatement_accounts hg (fun _ _ => rfl) hsilent
  case h_16 => exact throwStatement_accounts hg hsilent
  case h_17 => exact expressionStatement_accounts hg

/-- **A statement** accounts for its tokens. -/
theorem statementFrom_accounts :
    Accounts root (statementFrom g) ctx s
      (fun x t => s.Gathers root [.statement x] t) := by
  refine .look s.current rfl ?_
  split
  case h_1 k hk =>
    exact keywordStatement_accounts hg k (Token.isSilent_of_kind_keyword hk)
  case h_2 => exact hg.block.bind fun b t _ hb => .pure (.wrap hb rfl)
  case h_3 hk =>
    refine (Accounts.lift (skip_accounts
      (Token.isSilent_of_kind_punctuator hk))).bind fun _ t _ ht => ?_
    exact .pure (.wrap ht.2 rfl)
  case h_4 => exact expressionStatement_accounts hg

end Productions

/-! ## All levels -/

/-- **A production that counts as a level** gathers what it does without
being one. -/
theorem guarded_gathers {p : Parse α} {parts : α → List Node}
    (hp : Accounts root p ctx s.enter
      (fun a t => s.enter.Gathers root (parts a) t)) :
    Accounts root (guarded p) ctx s
      (fun a t => s.Gathers root (parts a) t) :=
  .guarded hp (fun _ _ h => h.leave)

/-- **A production between brackets** gathers what it does without
them. -/
theorem inBrackets_gathers {p : Parse α} {parts : α → List Node}
    (hp : Accounts root p ctx.inBrackets s.enter
      (fun a t => s.enter.Gathers root (parts a) t)) :
    Accounts root (inBrackets p) ctx s
      (fun a t => s.Gathers root (parts a) t) :=
  guarded_gathers (.withReader Context.Within.inBrackets hp)

end Parse

open Parse

/-- **A grammar of any number of levels accounts for what it reads.** -/
theorem Grammar.levels_gathers (root : Context) (n : Nat) :
    (levels n).Gathers root := by
  induction n with
  | zero => exact exhausted_gathers
  | succ n hg =>
    exact
      { sound := levels_succ_sound hg.sound (fun _ _ _ => trivial)
        statement := guarded_gathers (statementFrom_accounts hg)
        block := guarded_gathers (blockFrom_accounts hg)
        expression := fun min _ _ =>
          guarded_gathers (expressionFrom_accounts hg min)
        bracketed := fun point closer _ _ => inBrackets_gathers
          (tolerant_accounts point (expressionBefore_accounts hg closer))
        consequent := inBrackets_gathers (assignment_accounts hg)
        arguments := inBrackets_gathers (callArguments_accounts hg)
        elements := inBrackets_gathers (arrayElements_accounts hg)
        members := inBrackets_gathers (objectMembers_accounts hg)
        methods := inBrackets_gathers (classMethods_accounts hg)
        parameters := inBrackets_gathers parameterNames_accounts
        forHeader := inBrackets_gathers (forHeader_accounts hg)
        catchParameter := inBrackets_gathers identifier_accounts
        importSpecifiers := inBrackets_gathers
          (specifiers_accounts (fun _ => importSpecifier_accounts))
        exportSpecifiers := inBrackets_gathers
          (specifiers_accounts (fun _ => exportSpecifier_accounts)) }

end ScriptTree
