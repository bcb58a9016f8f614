import ScriptTree.Proofs.Account.Script
import ScriptTree.Proofs.Law.Loop
import ScriptTree.Proofs.Parse.Outcome
import ScriptTree.Proofs.Progress.Tolerant

/-!
# Scripts are made by law

The other statements, and then the grammar as a whole: if a law holds in a
run, then every level of the grammar makes its nodes by it
(`Grammar.levels_lawful`), and what a script has for statements may stand
below it (`runScript_lawful`).
-/

namespace ScriptTree

open Node State

variable {root ctx : Context} {s last : State} {L : Law} {k : Nat}
  {g : Grammar}

namespace Parse

open ScriptTree.Action

/-! ## Names of modules -/

/-- **The name of a module** is a string. -/
theorem moduleName_kind :
    Accounts root moduleName ctx s (fun l _ => l.kind = .string) := by
  refine .look (decide (s.current.kind = .string)) rfl
    (.ite (fun h => ?_) (fun _ => unexpected_accounts _))
  have heof := isEof_eq_false (of_decide_eq_true h) (fun h => nomatch h)
  exact (Accounts.lift (advance_accounts heof)).bind
    fun _ _ _ _ => .pure rfl

theorem fromClause_kind :
    Accounts root fromClause ctx s (fun l _ => l.kind = .string) :=
  (expectWord_accounts (by decide)).discard.bind
    fun _ _ _ _ => moduleName_kind

section Productions

variable (hg : g.Lawful root last L k)

include hg

/-! ## Exceptions and ways out -/

/-- What is done about an exception, if anything is. -/
theorem catchClause?_brings :
    Brings root last (catchClause? g) ctx s (fun c? =>
      L.Stand k ((c?.map CatchClause.parts).getD [])) := by
  refine .look (s.current.isKeyword .kwCatch) rfl
    (.ite (fun h => ?_) (fun _ => .pure .nil))
  refine .skip (.lift (skip_accounts (Token.isSilent_of_isKeyword h)))
    fun _ t _ _ => ?_
  refine .skip (catchParameter?_accounts hg.gathers) fun param? u _ _ => ?_
  refine hg.block.bind fun body v _ => ?_
  exact .look (v.spanFrom _) rfl
    (.pure fun hbody => (hg.law.identifiers _).append (.one hbody))

theorem finallyBlock?_brings :
    Brings root last (finallyBlock? g) ctx s
      (fun b? => ∀ b ∈ b?, L.stands k (.block b)) := by
  refine .look (s.current.isKeyword .kwFinally) rfl
    (.ite (fun h => ?_) (fun _ => .pure (by simp)))
  exact .skip (.lift (pass_accounts (Token.isSilent_of_isKeyword h)))
    fun _ _ _ _ => hg.block.bind fun b _ _ =>
      .pure fun hb x hx => Option.some.inj hx ▸ hb

theorem tryStatement_brings (hsilent : s.current.IsSilent) :
    Brings root last (tryStatement g) ctx s
      (fun x => L.made k (.statement x)) := by
  refine .skip (.lift (skip_accounts hsilent)) fun _ t _ _ => ?_
  refine hg.block.bind fun body u _ => ?_
  refine (catchClause?_brings hg).bind fun handler? v _ => ?_
  refine (finallyBlock?_brings hg).bind fun finalizer? w _ => ?_
  exact .look (w.spanFrom _) rfl
    (.pure fun hfinalizer hhandler hbody =>
      hg.law.makes trivial (.cons hbody
        (hhandler.append (.optional hfinalizer))))

omit hg in
theorem jumpStatement_brings {make : Span → Statement}
    (hmake : ∀ span, L.made k (.statement (make span)))
    (hsilent : s.current.IsSilent) :
    Brings root last (jumpStatement make) ctx s
      (fun x => L.made k (.statement x)) := by
  refine .skip (.lift (skip_accounts hsilent)) fun _ t _ _ => ?_
  refine .skip (.lift (terminator_accounts true)) fun _ u _ _ => ?_
  exact .look (u.spanFrom _) rfl (.pure (hmake _))

/-- A value that may be left out has a seat if it is there. -/
theorem optionalValue_brings :
    Brings root last (optionalValue g) ctx s
      (fun e? => ∀ e ∈ e?, L.sits k .plain e) := by
  refine .look (s.current.isPunctuator .semicolon || s.newlineBefore
    || s.atListEnd ctx) rfl (.ite (fun _ => .pure nofun) (fun _ => ?_))
  exact (expression_brings hg).bind fun e _ _ =>
    .pure fun he e' he' => Option.some.inj he' ▸ he

/-- **A value handed out**, by the word for it. -/
theorem valueStatement_brings
    {make : Option Expression → Span → Statement}
    (hmake : ∀ e? span, (make e? span).children
          = e?.toList.map .expression
        ∧ ((∀ e ∈ e?, L.sits k .plain e) →
          (make e? span).Seated (L.sits k)))
    (hsilent : s.current.IsSilent) :
    Brings root last (valueStatement g make) ctx s
      (fun x => L.made k (.statement x)) := by
  refine .skip (.lift (skip_accounts hsilent)) fun _ t _ _ => ?_
  refine (optionalValue_brings hg).bind fun e? u _ => ?_
  refine .skip (.lift (terminator_accounts true)) fun _ v _ _ => ?_
  refine .look (v.spanFrom _) rfl (.pure fun he => ?_)
  obtain ⟨hchildren, hseated⟩ := hmake e? (v.spanFrom _)
  refine hg.law.makes (hseated he) ?_
  rw [Node.children, hchildren]
  exact .expressions _

theorem throwStatement_brings (hsilent : s.current.IsSilent) :
    Brings root last (throwStatement g) ctx s
      (fun x => L.made k (.statement x)) := by
  refine .skip (.lift (skip_accounts hsilent)) fun _ t _ _ => ?_
  refine (expression_brings hg).bind fun e u _ => ?_
  refine .skip (.lift (terminator_accounts true)) fun _ v _ _ => ?_
  exact .look (v.spanFrom _) rfl
    (.pure fun he => hg.law.makes he (.expression .nil))

/-! ## Imports and exports -/

theorem importRest_names (default? : Option Identifier) (start : Nat) :
    Accounts root (importRest g default? start) ctx s
      (fun c _ => c.Names) := by
  refine (Accounts.lift (eat_accounts .star)).bind fun _ t _ _ => ?_
  refine .ite (fun _ => ?_) (fun _ => ?_)
  · refine (expectWord_accounts (by decide)).discard.bind
      fun _ u _ _ => identifier_accounts.bind fun name v _ _ => ?_
    exact .look (v.spanFrom start) rfl (.pure (.inr (.inl rfl)))
  refine .look (t.current.isPunctuator .lBrace) rfl
    (.ite (fun _ => ?_) (fun _ => unexpected_accounts _))
  refine (braced_accounts hg.gathers.importSpecifiers).bind
    fun names u _ _ => ?_
  exact .look (u.spanFrom start) rfl (.pure (.inr (.inr rfl)))

/-- **An import with names has one**: it is the default of the module that
may be alone. -/
theorem importClause_names :
    Accounts root (importClause g) ctx s (fun c _ => c.Names) := by
  refine .look s.here rfl ?_
  refine importDefault_accounts.bind fun default? t _ _ => ?_
  refine Accounts.bind (Q := fun more _ =>
    more = false → default?.isSome = true) (.lift ?_)
    fun more u _ hmore => ?_
  · refine .ite (fun _ => .pure nofun) (fun h => ?_)
    refine (eat_accounts .comma).mono fun _ _ _ _ _ => ?_
    exact Option.isSome_iff_ne_none.2 fun hnone => h (hnone ▸ rfl)
  · refine .ite (fun _ => importRest_names hg _ _) (fun h => ?_)
    exact .look (u.spanFrom s.here) rfl
      (.pure (.inl (hmore (Bool.eq_false_iff.2 h))))

/-- **An import** has names and the name of a module. -/
theorem importStatement_brings (hsilent : s.current.IsSilent) :
    Brings root last (importStatement g) ctx s
      (fun x => L.made k (.statement x)) := by
  have hclause {t : State} : Accounts root (importClause? g) ctx t
      (fun c? _ => ∀ c ∈ c?, c.Names) := by
    refine .look (decide (t.current.kind = .string)) rfl
      (.ite (fun _ => .pure nofun) (fun _ => ?_))
    refine (importClause_names hg).bind fun clause u _ hnames => ?_
    exact (expectWord_accounts (by decide)).discard.bind
      fun _ _ _ _ => .pure fun c hc => Option.some.inj hc ▸ hnames
  refine .skip (.lift (skip_accounts hsilent)) fun _ t _ _ => ?_
  refine .skip hclause fun clause? u _ hnames => ?_
  refine .skip moduleName_kind fun source v _ hsource => ?_
  refine .skip (.lift (terminator_accounts false)) fun _ w _ _ => ?_
  refine .look (w.spanFrom _) rfl
    (.pure (hg.law.makes ⟨hnames, hsource⟩ ?_))
  refine Law.Stand.append ?_ (.one (hg.law.literal _))
  cases clause? with
  | none => exact .nil
  | some c =>
    exact ((hg.law.identifiers _).append (hg.law.identifiers _)).append
      (.flatMap fun _ _ =>
        .cons (hg.law.identifier _) (hg.law.identifiers _))

/-- Everything of another module. -/
theorem exportAll_brings (hsilent : s.current.IsSilent) :
    Brings root last exportAll ctx s
      (fun e => e.Seated (L.sits k) ∧ L.Stand k e.parts) := by
  refine .skip (.lift (pass_accounts hsilent)) fun _ t _ _ => ?_
  refine .skip fromClause_kind fun source u _ hsource => ?_
  exact .skip (.lift (terminator_accounts false)) fun _ _ _ _ =>
    .pure ⟨hsource, .one (hg.law.literal _)⟩

/-- A list of names has nothing but names. -/
theorem exportNamed_brings :
    Brings root last (exportNamed g) ctx s
      (fun e => e.Seated (L.sits k) ∧ L.Stand k e.parts) := by
  refine .skip (braced_accounts hg.gathers.exportSpecifiers)
    fun names t _ _ => ?_
  refine .look (t.current.isWord "from") rfl ?_
  dsimp only
  have hend (source? : Option Literal) (u : State)
      (hsource : ∀ source ∈ source?, source.kind = .string) :
      Brings root last (do
        liftM (terminator false)
        pure (Export.named names source?)) ctx u
        (fun e => e.Seated (L.sits k) ∧ L.Stand k e.parts) := by
    refine .skip (.lift (terminator_accounts false)) fun _ _ _ _ =>
      .pure ⟨hsource, ?_⟩
    exact Law.Stand.append (.flatMap fun _ _ =>
      .cons (hg.law.identifier _) (hg.law.identifiers _))
      (.map fun _ _ => hg.law.literal _)
  refine .ite (fun _ => ?_) (fun _ => .look none rfl (hend none t nofun))
  refine .skip (Q := fun source? _ =>
    ∀ source ∈ source?, source.kind = .string) ?_
    fun source? u _ hsource => hend source? u hsource
  exact .map (fromClause_kind.mono fun l _ _ hl source hsource =>
    Option.some.inj hsource ▸ hl)

/-- **The default of a module.** -/
theorem exportDefault_brings (hsilent : s.current.IsSilent) :
    Brings root last (exportDefault g) ctx s
      (fun e => e.Seated (L.sits k) ∧ L.Stand k e.parts) := by
  refine .skip (.lift (pass_accounts hsilent)) fun _ t _ _ => ?_
  refine .look (t.current.isKeyword .kwClass) rfl
    (.ite (fun _ => ?_) (fun _ => ?_))
  · refine (classDefinition_brings hg true).bind fun c u _ => ?_
    exact .skip (.lift declarationEnd_accounts) fun _ _ _ _ =>
      .pure fun hc => ⟨.inr ⟨hg.law.exported rfl hc, c, rfl⟩,
        .expression .nil⟩
  · refine (assignment_brings hg).bind fun e u _ => ?_
    dsimp only
    refine .ite (fun _ => ?_) (fun _ => ?_)
    · exact .skip (.lift declarationEnd_accounts) fun _ _ _ _ =>
        .pure fun he => ⟨.inl he, .expression .nil⟩
    · exact .skip (.lift (terminator_accounts false)) fun _ _ _ _ =>
        .pure fun he => ⟨.inl he, .expression .nil⟩

/-- Variables that are exported are declared there. -/
theorem exportVariables_brings (hsilent : s.current.IsSilent) :
    Brings root last (exportVariables g) ctx s
      (fun e => e.Seated (L.sits k) ∧ L.Stand k e.parts) := by
  refine (variableDeclaration_brings hg hsilent).bind fun d t _ => ?_
  exact .skip (.lift (terminator_accounts false)) fun _ _ _ _ =>
    .pure fun hd => ⟨hd.1, .one (hg.law.declaration hd.1 hd.2)⟩

/-- A function that is exported is a declaration. -/
theorem exportFunction_brings (isAsync : Bool) (start : Nat) :
    Brings root last (do
      return Export.declaration (← functionExpression g isAsync start)) ctx s
      (fun e => e.Seated (L.sits k) ∧ L.Stand k e.parts) :=
  (functionExpression_brings hg isAsync start).bind
    fun _ _ _ => .pure fun he =>
      ⟨hg.law.exported he.1 he.2, .expression .nil⟩

theorem exportAsync_brings :
    Brings root last (exportAsync g) ctx s
      (fun e => e.Seated (L.sits k) ∧ L.Stand k e.parts) := by
  refine .look (s.current.isWord "async") rfl
    (.look s.scanner.peek rfl (.ite (fun h => ?_)
      (fun _ => unexpected_accounts _)))
  have hsilent := Token.isSilent_of_isWord
    (Bool.and_eq_true_iff.1 h).1 (by decide)
  exact .skip (.lift (skip_accounts hsilent)) fun _ _ _ _ =>
    exportFunction_brings hg true _

/-- **What an export names.** -/
theorem exported_brings :
    Brings root last (exported g) ctx s
      (fun e => e.Seated (L.sits k) ∧ L.Stand k e.parts) := by
  refine .look s.current rfl ?_
  split
  case h_1 hk =>
    exact exportAll_brings hg (Token.isSilent_of_kind_punctuator hk)
  case h_2 => exact exportNamed_brings hg
  case h_3 hk =>
    exact exportDefault_brings hg (Token.isSilent_of_kind_keyword hk)
  case h_4 hk =>
    exact exportVariables_brings hg (Token.isSilent_of_kind_keyword hk)
  case h_5 hk =>
    exact exportVariables_brings hg (Token.isSilent_of_kind_keyword hk)
  case h_6 hk =>
    exact exportVariables_brings hg (Token.isSilent_of_kind_keyword hk)
  case h_7 => exact .look s.here rfl (exportFunction_brings hg false _)
  case h_8 =>
    exact (classDefinition_brings hg true).bind
      fun c _ _ => .pure fun hc =>
        ⟨hg.law.exported rfl hc, .expression .nil⟩
  case h_9 => exact exportAsync_brings hg

theorem exportStatement_brings (hsilent : s.current.IsSilent) :
    Brings root last (exportStatement g) ctx s
      (fun x => L.made k (.statement x)) := by
  refine .skip (.lift (skip_accounts hsilent)) fun _ t _ _ => ?_
  refine (exported_brings hg).bind fun e u _ => ?_
  exact .look (u.spanFrom _) rfl (.pure fun he => hg.law.makes he.1 he.2)

/-! ## Any statement -/

/-- **What a reserved word begins**, word by word. -/
theorem keywordStatement_brings (word : Keyword)
    (hsilent : s.current.IsSilent) :
    Brings root last (keywordStatement g word) ctx s
      (fun x => L.made k (.statement x)) := by
  unfold keywordStatement
  split
  case h_1 => exact exportStatement_brings hg hsilent
  case h_2 => exact importStatement_brings hg hsilent
  case h_3 => exact declarationStatement_brings hg hsilent
  case h_4 => exact declarationStatement_brings hg hsilent
  case h_5 => exact declarationStatement_brings hg hsilent
  case h_6 => exact conditionalStatement_brings hg hsilent
  case h_7 => exact switchStatement_brings hg hsilent
  case h_8 => exact forStatement_brings hg hsilent
  case h_9 => exact whileStatement_brings hg hsilent
  case h_10 => exact doStatement_brings hg hsilent
  case h_11 => exact tryStatement_brings hg hsilent
  case h_12 =>
    exact jumpStatement_brings (fun _ => hg.law.makes trivial .nil) hsilent
  case h_13 =>
    exact jumpStatement_brings (fun _ => hg.law.makes trivial .nil) hsilent
  case h_14 =>
    exact valueStatement_brings hg (fun _ _ => ⟨rfl, id⟩) hsilent
  case h_15 =>
    exact valueStatement_brings hg (fun _ _ => ⟨rfl, id⟩) hsilent
  case h_16 => exact throwStatement_brings hg hsilent
  case h_17 => exact expressionStatement_brings hg

/-- **A statement**, with the seats taken as they should be. -/
theorem statementFrom_brings :
    Brings root last (statementFrom g) ctx s
      (fun x => L.made k (.statement x)) := by
  refine .look s.current rfl ?_
  split
  case h_1 word hk =>
    exact keywordStatement_brings hg word (Token.isSilent_of_kind_keyword hk)
  case h_2 =>
    exact hg.block.bind fun b _ _ => .pure fun hb =>
      hg.law.makes trivial (.one hb)
  case h_3 hk =>
    exact .skip (.lift (skip_accounts
      (Token.isSilent_of_kind_punctuator hk))) fun _ _ _ _ =>
        .pure (hg.law.makes trivial .nil)
  case h_4 => exact expressionStatement_brings hg

end Productions

/-- **A script**, with the seats taken as they should be. -/
theorem script_brings (hg : g.Lawful root last L k) :
    Action.Brings root last (script g) root s
      (fun xs => ∀ x ∈ xs, L.stands k (.statement x)) := by
  refine .look s.current rfl ?_
  refine (statementList_brings hg .eof).bind fun xs t _ => ?_
  dsimp only
  refine .ite (fun _ => ?_) (fun _ => .pure id)
  exact .skip reportEmpty_accounts fun _ _ _ _ => .pure id

/-- **What is refused for its depth** is not mended, so nothing is made. -/
theorem tolerant_tooDeep_brings {α : Type} [Mendable α] {R : α → Prop}
    (point : TolerantPoint) :
    Brings root last (tolerant point (tooDeep : Parse α)) ctx s R := by
  have hrun : tolerant point (tooDeep : Parse α) = tooDeep := by
    funext ctx s
    rw [tolerant_run]
    show (Mendable.ofError <$> mend point s.here _ : Parse α) ctx s = _
    rw [map_eq_pure_bind, bind_run, mend_of_isTooDeep rfl]
    rfl
  rw [hrun]
  exact tooDeep_accounts

end Parse

/-! ## All levels -/

open Parse

/-- **An expression may sit behind an operator** one level above the grammar
that it was folded over. -/
theorem Parse.expressionFrom_sits
    (hg : (Grammar.levels k).Lawful root last L k) {min : Precedence}
    (hmin : root.table.Asks min) :
    Brings root last (expressionFrom (Grammar.levels k) min) ctx s
      (L.sits (k + 1) .behind) := by
  refine Accounts.of_reached fun hctx hs => ?_
  refine Accounts.mono ((expressionFrom_brings hg min).and_ensures
    (expressionFrom_ensures hg.gathers.sound
      (fun _ _ _ => trivial) min)) fun e t hst he hlast => ?_
  exact hg.law.whole hmin hctx hs hst he.2.2.1 hlast he.2.2.2 (he.1 hlast)

/-- **A statement stands** one level above the grammar that it was read
over. -/
theorem Parse.statementFrom_stands
    (hg : (Grammar.levels k).Lawful root last L k) :
    Brings root last (statementFrom (Grammar.levels k)) ctx s
      (fun x => L.stands (k + 1) (.statement x)) := by
  intro hctx hs
  obtain ⟨hst, hmade, hfounded⟩ :=
    statementFrom_brings hg hctx hs
  exact ⟨hst, fun x hx hlast => hg.law.statement hctx hs hst
    (Prod.ext hx rfl) hlast (hmade x hx hlast), hfounded⟩

/-- **The grammars of all levels** make trees by a law that holds. -/
theorem Grammar.levels_lawful (hL : L.Holds root last) (n : Nat) :
    (levels n).Lawful root last L n := by
  induction n with
  | zero =>
    exact
      { gathers := exhausted_gathers
        law := hL
        folded := hL.folded
        statement := tooDeep_accounts
        block := tooDeep_accounts
        expression := fun _ => tooDeep_accounts
        tolerant := fun point _ _ _ _ => tolerant_tooDeep_brings point
        bracketed := fun _ _ => tooDeep_accounts
        consequent := tooDeep_accounts
        arguments := tooDeep_accounts
        elements := tooDeep_accounts
        members := tooDeep_accounts
        methods := tooDeep_accounts
        forHeader := tooDeep_accounts }
  | succ n hg =>
    have hexpression {min : Precedence} (hmin : root.table.Asks min)
        {ctx : Context} {s : State} :
        Brings root last ((levels (n + 1)).expression min) ctx s
          (L.sits (n + 1) .behind) :=
      .guarded (expressionFrom_sits hg hmin)
    exact
      { gathers := levels_gathers root (n + 1)
        law := hL
        folded := hL.folded
        statement := .guarded (statementFrom_stands hg)
        block := .guarded ((blockFrom_brings hg).mono fun _ => hL.block)
        expression := hexpression
        tolerant := fun point _ hmin _ _ =>
          tolerant_brings (hL.mended n) point
            ((hexpression hmin).mono fun _ => hL.plain)
        bracketed := fun point closer _ _ => .inBrackets
          (tolerant_brings (hL.mended n) point
            ((expressionBefore_brings hg closer).mono
              fun _ => hL.sits_succ))
        consequent := .inBrackets
          ((assignment_brings hg).mono fun _ => hL.sits_succ)
        arguments := .inBrackets (callArguments_brings hg)
        elements := .inBrackets (arrayElements_brings hg)
        members := .inBrackets (objectMembers_brings hg)
        methods := .inBrackets ((classMethods_brings hg).mono
          fun _ h m hm => hL.stands_succ (h m hm))
        forHeader := .inBrackets (forHeader_brings hg) }

/-- **Every script is made by a law that holds**: its statements stand below
it, over a grammar of as many levels as the options allow. -/
theorem runScript_lawful (options : Options) (table : OperatorTable)
    (source : List Char)
    (hL : L.Holds (.ofSource source options table)
      (runScript source options table).2) :
    ∀ x ∈ (runScript source options table).1,
      L.stands options.maxNestingDepth (.statement x) := by
  have hscript := script_brings
    (s := .initial (.ofSource source options table))
    (Grammar.levels_lawful hL options.maxNestingDepth)
  exact (hscript (.refl _) .refl).2 .refl

end ScriptTree
