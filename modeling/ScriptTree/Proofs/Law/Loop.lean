import ScriptTree.Proofs.Account.Statement
import ScriptTree.Proofs.Law.Expression

/-!
# Lists and loops are made by law

Declarations, lists of statements, and the statements that hold others. A
test is read for a seat, and so is every part of a header. What a loop over
an object or a collection sets is one of these, or a name.
-/

namespace ScriptTree.Parse

open ScriptTree.Action Node State

variable {root ctx : Context} {s last : State} {L : Law} {k : Nat}
  {g : Grammar} (hg : g.Lawful root last L k)

include hg

/-! ## Declarations and expressions -/

/-- The first value of a binding may sit in it. -/
theorem initializer?_brings :
    Brings root last (initializer? g) ctx s
      (fun e? => ∀ e ∈ e?, L.sits k .plain e) := by
  refine .skip (.lift (eat_accounts .assign)) fun _ t _ _ => ?_
  refine .ite (fun _ => ?_) (fun _ => .pure nofun)
  exact (assignment_brings hg).bind fun e _ _ =>
    .pure fun he e' he' => Option.some.inj he' ▸ he

/-- **One binding.** -/
theorem binding_brings :
    Brings root last (binding g) ctx s
      (fun d => d.Seated (L.sits k) ∧ L.Stand k d.parts) := by
  refine .skip identifier_accounts fun id _ _ _ => ?_
  refine (initializer?_brings hg).bind fun init? u _ => ?_
  refine .look (u.spanFrom id.span.start) rfl (.pure fun hinit => ?_)
  exact ⟨hinit, .cons (hg.law.identifier _) (.expressions _)⟩

/-- The loop over bindings, of which those found so far may be there. -/
theorem bindingsFrom_brings (turns : Nat) (found : List Declarator) :
    Brings root last (bindingsFrom g turns found) ctx s (fun ds =>
      (∀ d ∈ found, d.Seated (L.sits k) ∧ L.Stand k d.parts) →
        ∀ d ∈ ds, d.Seated (L.sits k) ∧ L.Stand k d.parts) := by
  induction turns generalizing s found with
  | zero => exact .pure fun h d hd => h d (List.mem_reverse.1 hd)
  | succ turns ih =>
    have hmend (node : ErrorNode) :
        (Declarator.error node).Seated (L.sits k)
          ∧ L.Stand k (Declarator.error node).parts :=
      ⟨trivial, hg.law.errorNode node⟩
    refine (tolerant_brings hmend .varBinding (binding_brings hg)).bind
      fun d t _ => ?_
    refine .skip (.lift (anotherBinding_accounts _)) fun _ u _ _ => ?_
    refine .ite (fun _ => ?_) (fun _ => .pure ?_)
    · exact (ih _).mono fun _ h hd hfound =>
        h (List.forall_mem_cons.2 ⟨hd, hfound⟩)
    · intro hd hfound x hx
      rcases List.mem_cons.1 (List.mem_reverse.1 hx) with rfl | hx
      · exact hd
      · exact hfound x hx

/-- **A declaration**, by its bindings. -/
theorem variableDeclaration_brings (hsilent : s.current.IsSilent) :
    Brings root last (variableDeclaration g) ctx s (fun d =>
      d.Seated (L.sits k)
        ∧ L.Stand k (d.declarators.flatMap Declarator.parts)) := by
  refine .skip (.lift (skip_accounts hsilent)) fun token t _ _ => ?_
  refine .look ctx rfl ?_
  refine (bindingsFrom_brings hg _ []).bind fun declarators u _ => ?_
  refine .look (u.spanFrom token.span.start) rfl (.pure fun hds => ?_)
  have hds := hds (List.forall_mem_nil _)
  exact ⟨fun d hd => (hds d hd).1, .flatMap fun d hd => (hds d hd).2⟩

theorem declarationStatement_brings (hsilent : s.current.IsSilent) :
    Brings root last (declarationStatement g) ctx s
      (fun x => L.made k (.statement x)) := by
  refine .look s.here rfl ?_
  refine (variableDeclaration_brings hg hsilent).bind fun d t _ => ?_
  refine .skip (.lift (terminator_accounts false)) fun _ u _ _ => ?_
  exact .look (u.spanFrom s.here) rfl (.pure fun hd =>
    hg.law.makes hd.1 (.one (hg.law.declaration hd.1 hd.2)))

/-- **An expression as a statement** may be mended, as deep as it stands. -/
theorem expressionStatement_brings :
    Brings root last (expressionStatement g) ctx s
      (fun x => L.made k (.statement x)) := by
  refine .look s.here rfl ?_
  refine (hg.tolerant .expressionStatement .lowest).bind fun e t _ => ?_
  refine .skip (.lift (expressionEnd_accounts e)) fun _ u _ _ => ?_
  exact .look (u.spanFrom s.here) rfl
    (.pure fun he => hg.law.makes he (.expression .nil))

/-! ## Statement lists -/

theorem statement_brings :
    Brings root last (statement g) ctx s
      (fun x => L.stands k (.statement x)) :=
  .look s.current rfl (.skip (.lift (record_accounts _))
    fun _ _ _ _ => hg.statement)

/-- A statement that is given up is an error. -/
theorem abandon_brings (start : Nat) {error : ParseError}
    (h : s.Sound root → error.Founded root s) :
    Action.Brings root last (abandon start error) ctx s
      (fun x? => ∀ x ∈ x?, L.stands k (.statement x)) := by
  refine .skip (reportError_accounts (by decide) h) fun _ t _ _ => ?_
  refine .skip (record_accounts _) fun _ u _ _ => ?_
  refine .look ctx rfl (.look u.here rfl ?_)
  refine .skip (skipStatement_accounts _ 0 _) fun _ v _ _ => ?_
  refine .look (v.spanFrom start) rfl (.ite (fun _ => .pure nofun)
    (fun _ => .look _ rfl (.pure fun x hx => ?_)))
  rw [← Option.some.inj hx]
  exact hg.law.error k _

/-- **The loop over statements**: each may stand, as it is or given up. -/
theorem statementsFrom_brings (turns : Nat) (found : List Statement) :
    Action.Brings root last (statementsFrom g turns found) ctx s (fun xs =>
      (∀ x ∈ found, L.stands k (.statement x)) →
        ∀ x ∈ xs, L.stands k (.statement x)) := by
  have hdone {found : List Statement}
      (h : ∀ x ∈ found, L.stands k (.statement x)) :
      ∀ x ∈ found.reverse, L.stands k (.statement x) :=
    fun x hx => h x (List.mem_reverse.1 hx)
  induction turns generalizing s found with
  | zero => exact .pure hdone
  | succ turns ih =>
    have hnext (x : Statement) {t : State} : Action.Brings root last
        (statementsFrom g turns (x :: found)) ctx t (fun xs =>
          L.stands k (.statement x) →
            (∀ y ∈ found, L.stands k (.statement y)) →
              ∀ y ∈ xs, L.stands k (.statement y)) :=
      (ih _).mono fun _ h hx hfound =>
        h (List.forall_mem_cons.2 ⟨hx, hfound⟩)
    refine .look s rfl (.look (s.atListEnd ctx) rfl ?_)
    refine .ite (fun _ => .pure hdone) (fun _ => .look s.here rfl ?_)
    refine .skip (statement_brings hg).attempt fun r t _ hr => ?_
    cases r with
    | ok x =>
      refine Action.Accounts.mono (hnext x) fun xs u htu h hlast hfound => ?_
      exact h hlast (hr.1 x rfl (htu.trans hlast)) hfound
    | error error =>
      refine (abandon_brings hg _ fun _ => hr.2 error rfl).bind
        fun x? u _ => ?_
      cases x? with
      | some x => exact (hnext x).mono fun _ h hx => h (hx x rfl)
      | none => exact (ih found).mono fun _ h _ => h

/-- **A statement list.** -/
theorem statementList_brings (listEnd : ListEnd) :
    Action.Brings root last (statementList g listEnd) ctx s
      (fun xs => ∀ x ∈ xs, L.stands k (.statement x)) := by
  intro hctx hs
  exact (statementsFrom_brings hg ctx.turns []).mono
    (fun _ h => h (List.forall_mem_nil _)) (hctx.inList listEnd) hs

theorem blockFrom_brings :
    Brings root last (blockFrom g) ctx s
      (fun b => L.made k (.block b)) := by
  refine .skip (expectPunctuator_accounts _) fun opening _ _ _ => ?_
  refine (Brings.lift (statementList_brings hg .brace)).bind
    fun body _ _ => ?_
  refine .skip (expectPunctuator_accounts .rBrace).discard
    fun _ v _ _ => ?_
  exact .look (v.spanFrom opening.span.start) rfl
    (.pure fun hbody => hg.law.makes trivial (.map hbody))

/-! ## Conditions and loops -/

/-- The other branch, if there is one. -/
theorem alternative?_brings :
    Brings root last (alternative? g) ctx s
      (fun x? => ∀ x ∈ x?, L.stands k (.statement x)) := by
  refine .look (s.current.isKeyword .kwElse) rfl
    (.ite (fun h => ?_) (fun _ => .pure (by simp)))
  exact .skip (.lift (pass_accounts (Token.isSilent_of_isKeyword h)))
    fun _ _ _ _ => (statement_brings hg).bind fun x _ _ =>
      .pure fun hx y hy => Option.some.inj hy ▸ hx

/-- A condition: its test has a seat, and its branches stand. -/
theorem conditionalStatement_brings (hsilent : s.current.IsSilent) :
    Brings root last (conditionalStatement g) ctx s
      (fun x => L.made k (.statement x)) := by
  refine .skip (.lift (skip_accounts hsilent)) fun _ t _ _ => ?_
  refine (condition_brings hg).bind fun test u _ => ?_
  refine (statement_brings hg).bind fun consequent v _ => ?_
  refine (alternative?_brings hg).bind fun x? w _ => ?_
  exact .look (w.spanFrom _) rfl (.pure fun hx hconsequent htest =>
    hg.law.makes htest (.expression (.cons hconsequent (.optional hx))))

theorem caseTest_brings :
    Brings root last (caseTest g) ctx s
      (fun e? => ∀ e ∈ e?, L.sits k .plain e) := by
  refine .look (s.current.isKeyword .kwCase) rfl
    (.ite (fun h => ?_) (fun _ => ?_))
  · exact .skip (.lift (pass_accounts (Token.isSilent_of_isKeyword h)))
      fun _ _ _ _ => (expression_brings hg).bind fun e _ _ =>
        .pure fun he e' he' => Option.some.inj he' ▸ he
  · refine .look (s.current.isKeyword .kwDefault) rfl
      (.ite (fun h => ?_) (fun _ => unexpected_accounts _))
    exact .skip (.lift (pass_accounts (Token.isSilent_of_isKeyword h)))
      fun _ _ _ _ => .pure nofun

/-- **A clause** is no node; its value has a seat. -/
theorem switchCase_brings :
    Brings root last (switchCase g) ctx s (fun c =>
      (∀ e ∈ c.test?, L.sits k .plain e) ∧ L.Stand k c.parts) := by
  refine .look s.here rfl ?_
  refine (caseTest_brings hg).bind fun test? t _ => ?_
  refine .skip (expectPunctuator_accounts .colon).discard
    fun _ u _ _ => ?_
  refine (Brings.lift (statementList_brings hg .switchCase)).bind
    fun xs v _ => ?_
  refine .look (v.spanFrom s.here) rfl (.pure fun hxs htest => ?_)
  exact ⟨htest, (Law.Stand.expressions _).append (.map hxs)⟩

theorem switchCasesFrom_brings (turns : Nat) (found : List SwitchCase) :
    Brings root last (switchCasesFrom g turns found) ctx s (fun cs =>
      (∀ c ∈ found, (∀ e ∈ c.test?, L.sits k .plain e)
        ∧ L.Stand k c.parts) →
      ∀ c ∈ cs, (∀ e ∈ c.test?, L.sits k .plain e)
        ∧ L.Stand k c.parts) := by
  have hdone {found : List SwitchCase} {P : SwitchCase → Prop}
      (h : ∀ c ∈ found, P c) : ∀ c ∈ found.reverse, P c :=
    fun c hc => h c (List.mem_reverse.1 hc)
  induction turns generalizing s found with
  | zero => exact .pure hdone
  | succ turns ih =>
    refine .look (s.current.isPunctuator .rBrace) rfl
      (.ite (fun _ => .pure hdone) (fun _ => ?_))
    refine (switchCase_brings hg).bind fun c t _ => ?_
    exact (ih _).mono fun _ h hc hfound =>
      h (List.forall_mem_cons.2 ⟨hc, hfound⟩)

/-- A choice: its values have seats, and what they lead to stands. -/
theorem switchStatement_brings (hsilent : s.current.IsSilent) :
    Brings root last (switchStatement g) ctx s
      (fun x => L.made k (.statement x)) := by
  refine .skip (.lift (skip_accounts hsilent)) fun _ t _ _ => ?_
  refine (condition_brings hg).bind fun discriminant u _ => ?_
  refine .skip (expectPunctuator_accounts .lBrace).discard
    fun _ v _ _ => .look ctx rfl ?_
  refine (switchCasesFrom_brings hg _ []).bind fun cases w _ => ?_
  refine .skip (expectPunctuator_accounts .rBrace).discard
    fun _ x _ _ => ?_
  refine .look (x.spanFrom _) rfl (.pure fun hcases hdisc => ?_)
  have hcases := hcases (List.forall_mem_nil _)
  exact hg.law.makes ⟨hdisc, fun c hc => (hcases c hc).1⟩
    (.expression (.flatMap fun c hc => (hcases c hc).2))

theorem whileStatement_brings (hsilent : s.current.IsSilent) :
    Brings root last (whileStatement g) ctx s
      (fun x => L.made k (.statement x)) := by
  refine .skip (.lift (skip_accounts hsilent)) fun _ t _ _ => ?_
  refine (condition_brings hg).bind fun test u _ => ?_
  refine (statement_brings hg).bind fun body v _ => ?_
  exact .look (v.spanFrom _) rfl (.pure fun hbody htest =>
    hg.law.makes htest (.expression (.one hbody)))

/-- The loop that tests behind its body. -/
theorem doStatement_brings (hsilent : s.current.IsSilent) :
    Brings root last (doStatement g) ctx s
      (fun x => L.made k (.statement x)) := by
  refine .skip (.lift (skip_accounts hsilent)) fun _ t _ _ => ?_
  refine hg.block.bind fun body u _ => ?_
  refine .skip (expectKeyword_accounts _).discard fun _ v _ _ => ?_
  refine (condition_brings hg).bind fun test w _ => ?_
  refine .skip (.lift (terminator_accounts false)) fun _ x _ _ => ?_
  exact .look (x.spanFrom _) rfl (.pure fun htest hbody =>
    hg.law.makes htest (.cons hbody (.expression .nil)))

/-! ## Loops over a range -/

/-- **A part of a header** has the level of the header to itself. -/
theorem headerPart_brings (closer : Punctuator) :
    Brings root last (headerPart g closer) ctx s (L.sits (k + 1) .plain) :=
  tolerant_brings (hg.law.mended k) .forHeader
    ((expressionBefore_brings hg closer).mono fun _ => hg.law.sits_succ)

theorem optionalHeaderPart_brings (closer : Punctuator) :
    Brings root last (optionalHeaderPart g closer) ctx s
      (fun e? => ∀ e ∈ e?, L.sits (k + 1) .plain e) := by
  refine .look (s.current.isPunctuator closer) rfl
    (.ite (fun _ => .pure nofun) (fun _ => ?_))
  exact (headerPart_brings hg closer).bind fun e _ _ =>
    .pure fun he e' he' => Option.some.inj he' ▸ he

/-- **The first part of a header.** -/
theorem headerInit_brings :
    Brings root last (headerInit g) ctx s (fun i? => ∀ i ∈ i?,
      i.Seated (L.sits (k + 1)) ∧ L.Stand (k + 1) [i.part]) := by
  have hsome (i : ForInit) (h : i.Seated (L.sits (k + 1))
        ∧ L.Stand (k + 1) [i.part]) :
      ∀ j ∈ some i, j.Seated (L.sits (k + 1)) ∧ L.Stand (k + 1) [j.part] :=
    fun _ hj => Option.some.inj hj ▸ h
  refine .look s.current rfl
    (.ite (fun _ => .pure nofun) (fun _ => ?_))
  refine .ite (fun h => ?_) (fun _ => ?_)
  · obtain ⟨kind, hkind⟩ := Option.isSome_iff_exists.1 h
    refine (Brings.withReader Context.Within.withoutIn
      (variableDeclaration_brings hg (isSilent_of_varKind? hkind))).bind
      fun d t _ => .pure fun hd => hsome _ ⟨hd.1.mono fun _ =>
        hg.law.sits_succ, .one (hg.law.stands_succ
          (hg.law.declaration hd.1 hd.2))⟩
  · refine (Brings.withReader Context.Within.withoutIn
      (tolerant_brings (hg.law.mended k) .forHeader
        ((expression_brings hg).mono fun _ => hg.law.sits_succ))).bind
      fun e t _ => .pure fun he => hsome _ ⟨he, .expression .nil⟩

/-- What a loop sets is the expression in the first part of its header, or
a name. -/
theorem loopTarget?_sits {init? : Option ForInit} {left : Expression}
    (hinit : ∀ i ∈ init?, i.Seated (L.sits (k + 1)))
    (hleft : loopTarget? init? = some left) :
    L.sits (k + 1) .plain left := by
  unfold loopTarget? at hleft
  split at hleft
  · obtain rfl := Option.some.inj hleft
    exact hinit _ rfl
  · split at hleft
    · obtain rfl := Option.some.inj hleft
      exact hg.law.name k _
    · cases hleft
  · cases hleft

/-- **The rest of a header for a range**: both parts may sit in it. -/
theorem eachHeader_brings {init? : Option ForInit}
    (hsilent : s.current.IsSilent) :
    Brings root last (eachHeader g init?) ctx s (fun r =>
      (∀ i ∈ init?, i.Seated (L.sits (k + 1))) →
        L.sits (k + 1) .plain r.1 ∧ L.sits (k + 1) .plain r.2) := by
  unfold eachHeader
  split
  · exact unexpected_accounts _
  · rename_i left hleft
    exact .skip (.lift (pass_accounts hsilent)) fun _ _ _ _ =>
      (headerPart_brings hg _).bind fun right _ _ =>
        .pure fun hright hinit => ⟨loopTarget?_sits hg hinit hleft, hright⟩

/-- **The header of a loop.** -/
theorem forHeader_brings :
    Brings root last (forHeader g) ctx s
      (fun h => h.Seated (L.sits (k + 1)) ∧ L.Stand (k + 1) h.parts) := by
  refine (headerInit_brings hg).bind fun init? t _ => ?_
  dsimp only
  refine .look (t.current.isKeyword .kwIn) rfl
    (.ite (fun h => ?_) (fun _ => ?_))
  · exact (eachHeader_brings hg (Token.isSilent_of_isKeyword h)).bind
      fun r _ _ => .pure fun hr hinit => ⟨hr fun i hi => (hinit i hi).1,
        .expression (.expression .nil)⟩
  refine .look (t.current.isWord "of") rfl
    (.ite (fun h => ?_) (fun _ => ?_))
  · exact (eachHeader_brings hg
      (Token.isSilent_of_isWord h (by decide))).bind
      fun r _ _ => .pure fun hr hinit => ⟨hr fun i hi => (hinit i hi).1,
        .expression (.expression .nil)⟩
  refine .skip (expectPunctuator_accounts .semicolon).discard
    fun _ u _ _ => ?_
  refine (optionalHeaderPart_brings hg _).bind fun test? v _ => ?_
  refine .skip (expectPunctuator_accounts .semicolon).discard
    fun _ w _ _ => ?_
  refine (optionalHeaderPart_brings hg _).bind fun update? x _ => .pure ?_
  intro hupdate htest hinit
  refine ⟨⟨fun i hi => (hinit i hi).1, htest, hupdate⟩, ?_⟩
  refine ((Law.Stand.append ?_ (.expressions _)).append (.expressions _))
  intro n hn
  obtain ⟨i, hi, rfl⟩ := List.mem_map.1 hn
  exact (hinit i (Option.mem_toList.1 hi)).2 _ List.mem_cons_self

/-- A loop with a header, by the header and the body. -/
theorem forStatement_brings (hsilent : s.current.IsSilent) :
    Brings root last (forStatement g) ctx s
      (fun x => L.made k (.statement x)) := by
  refine .skip (.lift (skip_accounts hsilent)) fun _ t _ _ => ?_
  refine .skip (expectPunctuator_accounts .lParen).discard
    fun _ u _ _ => hg.forHeader.bind fun header v _ => ?_
  refine .skip (expectPunctuator_accounts .rParen).discard
    fun _ w _ _ => ?_
  refine (statement_brings hg).bind fun body x _ => ?_
  refine .look (x.spanFrom _) rfl (.pure fun hbody hheader => ?_)
  cases header with
  | counting | overKeys | overValues =>
    exact hg.law.makes hheader.1 (Law.Stand.append hheader.2 (.one hbody))

end ScriptTree.Parse
