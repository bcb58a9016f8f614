import ScriptTree.Parse.Levels
import ScriptTree.Proofs.Break.Ending
import ScriptTree.Proofs.Paired.Expression
import ScriptTree.Proofs.Parse.Outcome
import ScriptTree.Proofs.Parse.Statement

/-!
# Brackets close one another

Blocks are nodes in braces. The parentheses of conditions and loop headers
and the braces around clauses and lists of names are those of no node.

With the statements the grammar is known as a whole. So for any options and
operators, and for any text, the brackets of a node are found among the
tokens that were read: the one that closes is of the kind of the one that
opens, and what lies between them is balanced, as long as the tokens of the
errors there are (`parseWith_encloses`). Nothing more can be said of a node
with an error in it: an error may end inside brackets that were opened in
it, and the node ends with the first bracket behind.
-/

namespace ScriptTree

variable {root ctx : Context} {r s : State} {α : Type}

namespace Parse

open ScriptTree.Action State

/-! ## Lists of names -/

section Specifiers

variable {parts : α → List Node} {item : Parse α}
  (hitem : ∀ s, Ensures root item ctx s (fun x t => s.Pairs (parts x) t))

include hitem

theorem specifiersFrom_pairs (turns : Nat) {found : List α}
    (hfound : r.Pairs (found.reverse.flatMap parts) s) :
    Ensures root (specifiersFrom item turns found) ctx s
      (fun xs t => r.Pairs (xs.flatMap parts) t) := by
  induction turns generalizing s found with
  | zero => exact .pure hfound
  | succ turns ih =>
    refine .look (s.current.isPunctuator .rBrace) rfl
      (.ite (fun _ => .pure hfound) (fun _ => ?_))
    refine (hitem s).bind fun x t _ hx => ?_
    refine (Ensures.lift (eat_pairs .comma rfl)).bind fun _ u _ hu => ?_
    have hfound := (hfound.concat hx).later hu
    exact .ite (fun _ => ih hfound) (fun _ => .pure hfound)

theorem specifiers_pairs :
    Ensures root (specifiers item) ctx s
      (fun xs t => s.Pairs (xs.flatMap parts) t) :=
  .look ctx rfl (specifiersFrom_pairs hitem _ (.refl s))

omit hitem in
/-- A list of names in its braces. -/
theorem braced_pairs {p : Parse (List α)}
    (hp : ∀ {s}, Ensures root p ctx s
      (fun xs t => s.Pairs (xs.flatMap parts) t)) :
    Ensures root (do
      discard (expectPunctuator .lBrace)
      let names ← p
      discard (expectPunctuator .rBrace)
      return names) ctx s
      (fun xs t => s.Pairs (xs.flatMap parts) t) := by
  refine (expectPunctuator_shifts .lBrace).discard.bind
    fun _ t _ ⟨_, hopens, ht⟩ => ?_
  refine hp.bind fun names u _ hnames => ?_
  refine (close_pairs .rBrace hnames).bind fun _ v _ hv => .pure ?_
  exact (Brackets.open_ hopens ht rfl hv).plain

end Specifiers

/-- **A second name** behind the first. -/
theorem alias?_pairs {name : Parse Identifier}
    (hname : ∀ s, Ensures root name ctx s
      (fun id t => s.Pairs [.identifier id] t)) :
    Ensures root (alias? name) ctx s
      (fun id? t => s.Pairs (id?.toList.map .identifier) t) := by
  refine .look (s.current.isWord "as") rfl
    (.ite (fun h => ?_) (fun _ => .pure (.refl s)))
  refine (Ensures.lift (pass_pairs (isEof_of_isWord h)
    (isBracket_of_isWord h))).bind fun _ t _ ht => ?_
  exact (hname t).bind fun id u _ hid => .pure (ht.trans hid)

theorem importSpecifier_pairs :
    Ensures root importSpecifier ctx s (fun x t => s.Pairs x.parts t) := by
  refine propertyName_pairs.bind fun imported t _ himported => ?_
  refine (alias?_pairs (fun _ => identifier_pairs)).bind
    fun id? u _ hid => ?_
  exact .look (u.spanFrom _) rfl (.pure (himported.trans hid))

theorem exportSpecifier_pairs :
    Ensures root exportSpecifier ctx s (fun x t => s.Pairs x.parts t) := by
  refine identifier_pairs.bind fun localName t _ hlocal => ?_
  refine (alias?_pairs (fun _ => propertyName_pairs)).bind
    fun id? u _ hid => ?_
  exact .look (u.spanFrom _) rfl (.pure (hlocal.trans hid))

theorem fromClause_pairs :
    Ensures root fromClause ctx s (fun l t => s.Pairs [.literal l] t) := by
  refine (expectWord_pairs "from").discard.bind fun _ t _ ⟨_, ht⟩ => ?_
  exact moduleName_pairs.mono fun _ _ _ h => ht.trans h

section Productions

variable {g : Grammar} (hg : g.Pairs root)

include hg

/-! ## Imports -/

/-- **The names behind the one for a module's default.** -/
theorem importRest_pairs {default? : Option Identifier} (start : Nat)
    (hdefault : r.Pairs (default?.toList.map .identifier) s) :
    Ensures root (importRest g default? start) ctx s
      (fun c t => r.Pairs c.parts t) := by
  refine (Ensures.lift (eat_pairs .star rfl)).bind fun _ t _ ht => ?_
  have hdefault := hdefault.later ht
  refine .ite (fun _ => ?_) (fun _ => ?_)
  · refine (expectWord_pairs "as").discard.bind fun _ u _ ⟨_, hu⟩ => ?_
    refine identifier_pairs.bind fun name v _ hname => ?_
    refine .look (v.spanFrom start) rfl (.pure ?_)
    unfold ImportClause.parts
    rw [Option.getD_none, List.flatMap_nil, List.append_nil]
    exact (hdefault.later hu).trans hname
  refine .look (t.current.isPunctuator .lBrace) rfl
    (.ite (fun _ => ?_) (fun _ => unexpected_ensures _))
  refine (braced_pairs hg.importSpecifiers).bind fun names u _ hnames => ?_
  refine .look (u.spanFrom start) rfl (.pure ?_)
  unfold ImportClause.parts
  rw [Option.toList_none, List.map_nil, List.append_nil]
  exact hdefault.trans hnames

theorem importClause_pairs :
    Ensures root (importClause g) ctx s
      (fun c t => s.Pairs c.parts t) := by
  refine .look s.here rfl ?_
  refine optionalIdentifier_pairs.bind fun default? t _ hdefault => ?_
  have hmore : Action.Ensures root (moreImports default?) ctx t
      (fun _ u => t.Pairs [] u) :=
    .ite (fun _ => .pure (.refl t)) (fun _ => eat_pairs .comma rfl)
  refine (Ensures.lift hmore).bind fun _ u _ hu => ?_
  have hdefault := hdefault.later hu
  refine .ite (fun _ => importRest_pairs hg _ hdefault) (fun _ => ?_)
  refine .look (u.spanFrom s.here) rfl (.pure ?_)
  unfold ImportClause.parts
  rw [Option.toList_none, List.map_nil, List.append_nil, Option.getD_none,
    List.flatMap_nil, List.append_nil]
  exact hdefault

theorem importClause?_pairs :
    Ensures root (importClause? g) ctx s (fun c? t =>
      s.Pairs ((c?.map ImportClause.parts).getD []) t) := by
  refine .look (decide (s.current.kind = .string)) rfl
    (.ite (fun _ => .pure (.refl s)) (fun _ => ?_))
  refine (importClause_pairs hg).bind fun clause t _ hclause => ?_
  refine (expectWord_pairs "from").discard.bind fun _ u _ ⟨_, hu⟩ => ?_
  exact .pure (hclause.later hu)

theorem importStatement_pairs (heof : s.current.isEof = false)
    (hplain : s.current.isBracket = false) :
    Ensures root (importStatement g) ctx s
      (fun x t => s.Pairs [.statement x] t) := by
  refine (Ensures.lift (advance_pairs heof hplain)).bind
    fun _ t _ ⟨_, ht⟩ => ?_
  refine (importClause?_pairs hg).bind fun clause? u _ hclause => ?_
  refine moduleName_pairs.bind fun source v _ hsource => ?_
  refine (Ensures.lift (terminator_pairs false)).bind fun _ w _ hw => ?_
  refine .look (w.spanFrom _) rfl (.pure (.wrap ?_ rfl rfl))
  exact (ht.trans (hclause.trans hsource)).later hw

/-! ## Exports -/

omit hg in
theorem exportAll_pairs (heof : s.current.isEof = false)
    (hplain : s.current.isBracket = false) :
    Ensures root exportAll ctx s (fun e t => s.Pairs e.parts t) := by
  refine (Ensures.lift (pass_pairs heof hplain)).bind fun _ t _ ht => ?_
  refine fromClause_pairs.bind fun source u _ hsource => ?_
  refine (Ensures.lift (terminator_pairs false)).bind fun _ v _ hv => ?_
  exact .pure (ht.trans (hsource.later hv))

theorem exportNamed_pairs :
    Ensures root (exportNamed g) ctx s (fun e t => s.Pairs e.parts t) := by
  refine (braced_pairs hg.exportSpecifiers).bind fun names t _ hnames => ?_
  refine .look (t.current.isWord "from") rfl ?_
  dsimp only
  -- What follows the module, if one is named, is the same.
  have hend : ∀ source? u, t.Leads root u →
      t.Pairs (source?.toList.map .literal) u →
      Ensures root (do
        liftM (terminator false)
        pure (Export.named names source?)) ctx u
        (fun e v => s.Pairs e.parts v) := by
    intro source? u _ hsource
    refine (Ensures.lift (terminator_pairs false)).bind fun _ v _ hv => ?_
    exact .pure ((hnames.trans hsource).later hv)
  refine .ite (fun _ => ?_) (fun _ => .look none rfl (.of_good fun _ ht => ?_))
  · exact Ensures.bind (.map fromClause_pairs) hend
  · exact hend none t (.refl ht) (.refl t)

/-- **The default of a module.** -/
theorem exportDefault_pairs (heof : s.current.isEof = false)
    (hplain : s.current.isBracket = false) :
    Ensures root (exportDefault g) ctx s
      (fun e t => s.Pairs e.parts t) := by
  refine (Ensures.lift (pass_pairs heof hplain)).bind fun _ t _ ht => ?_
  refine .look (t.current.isKeyword .kwClass) rfl
    (.ite (fun _ => ?_) (fun _ => ?_))
  · refine (classDefinition_pairs hg true).bind fun c u _ hc => ?_
    refine (Ensures.lift declarationEnd_pairs).bind fun _ v _ hv => .pure ?_
    have hc : t.Pairs [.expression (.classDef c)] u := .wrap hc rfl rfl
    exact ht.trans (hc.later hv)
  · refine (assignment_pairs hg).bind fun e u _ he => ?_
    dsimp only
    refine .ite (fun _ => ?_) (fun _ => ?_)
    · exact (Ensures.lift declarationEnd_pairs).bind fun _ v _ hv =>
        .pure (ht.trans (he.later hv))
    · exact (Ensures.lift (terminator_pairs false)).bind fun _ v _ hv =>
        .pure (ht.trans (he.later hv))

theorem exportVariables_pairs (heof : s.current.isEof = false)
    (hplain : s.current.isBracket = false) :
    Ensures root (exportVariables g) ctx s
      (fun e t => s.Pairs e.parts t) := by
  refine (variableDeclaration_pairs hg heof hplain).bind
    fun ⟨kind, declarators, span⟩ t _ hd => ?_
  refine (Ensures.lift (terminator_pairs false)).bind fun _ u _ hu => ?_
  exact .pure ((hd span).later hu)

/-- **A function**, exported. -/
theorem functionExport_pairs (isAsync : Bool) (start : Nat)
    (hr : r.Pairs [] s) :
    Ensures root
      (do return Export.declaration (← functionExpression g isAsync start))
      ctx s (fun e t => r.Pairs e.parts t) :=
  (functionExpression_pairs hg isAsync start).bind
    fun _ _ _ he => .pure (hr.trans he)

theorem exportAsync_pairs :
    Ensures root (exportAsync g) ctx s (fun e t => s.Pairs e.parts t) := by
  refine .look (s.current.isWord "async") rfl
    (.look s.scanner.peek rfl (.ite (fun h => ?_)
      (fun _ => unexpected_ensures _)))
  have hword := (Bool.and_eq_true_iff.1 h).1
  refine (Ensures.lift (advance_pairs (isEof_of_isWord hword)
    (isBracket_of_isWord hword))).bind fun _ t _ ⟨_, ht⟩ => ?_
  exact functionExport_pairs hg true _ ht

/-- **What an export names.** -/
theorem exported_pairs :
    Ensures root (exported g) ctx s (fun e t => s.Pairs e.parts t) := by
  refine .look s.current rfl ?_
  have hvariables : ∀ {k : Keyword}, s.current.kind = .keyword k →
      Ensures root (exportVariables g) ctx s
        (fun e t => s.Pairs e.parts t) := fun hk =>
    exportVariables_pairs hg (isEof_eq_false hk (by simp))
      (Token.isBracket_of_kind hk)
  split
  case h_1 hk =>
    exact exportAll_pairs (isEof_eq_false hk (by simp))
      (Token.isBracket_of_kind hk)
  case h_2 => exact exportNamed_pairs hg
  case h_3 hk =>
    exact exportDefault_pairs hg (isEof_eq_false hk (by simp))
      (Token.isBracket_of_kind hk)
  case h_4 hk => exact hvariables hk
  case h_5 hk => exact hvariables hk
  case h_6 hk => exact hvariables hk
  case h_7 => exact .look s.here rfl (functionExport_pairs hg _ _ (.refl s))
  case h_8 =>
    exact (classDefinition_pairs hg true).bind fun c t _ hc =>
      .pure (.wrap hc rfl rfl)
  case h_9 => exact exportAsync_pairs hg

theorem exportStatement_pairs (heof : s.current.isEof = false)
    (hplain : s.current.isBracket = false) :
    Ensures root (exportStatement g) ctx s
      (fun x t => s.Pairs [.statement x] t) := by
  refine (Ensures.lift (advance_pairs heof hplain)).bind
    fun _ t _ ⟨_, ht⟩ => ?_
  refine (exported_pairs hg).bind fun e u _ he => ?_
  exact .look (u.spanFrom _) rfl (.pure (.wrap (ht.trans he) rfl rfl))

/-! ## Conditions -/

theorem alternative?_pairs :
    Ensures root (alternative? g) ctx s
      (fun x? t => s.Pairs (x?.toList.map .statement) t) := by
  refine .look (s.current.isKeyword .kwElse) rfl
    (.ite (fun h => ?_) (fun _ => .pure (.refl s)))
  refine (Ensures.lift (pass_pairs (isEof_of_isKeyword h)
    (isBracket_of_isKeyword h))).bind fun _ t _ ht => ?_
  exact (statement_pairs hg).bind fun x u _ hx => .pure (ht.trans hx)

theorem conditionalStatement_pairs (heof : s.current.isEof = false)
    (hplain : s.current.isBracket = false) :
    Ensures root (conditionalStatement g) ctx s
      (fun x t => s.Pairs [.statement x] t) := by
  refine (Ensures.lift (advance_pairs heof hplain)).bind
    fun _ t _ ⟨_, ht⟩ => ?_
  refine (condition_pairs hg).bind fun test u _ htest => ?_
  refine (statement_pairs hg).bind fun consequent v _ hconsequent => ?_
  refine (alternative?_pairs hg).bind fun x? w _ hx => ?_
  refine .look (w.spanFrom _) rfl (.pure (.wrap ?_ rfl rfl))
  exact (ht.trans htest.plain).trans (hconsequent.trans hx)

theorem caseTest_pairs :
    Ensures root (caseTest g) ctx s
      (fun e? t => s.Pairs (e?.toList.map .expression) t) := by
  refine .look (s.current.isKeyword .kwCase) rfl
    (.ite (fun h => ?_) (fun _ => ?_))
  · refine (Ensures.lift (pass_pairs (isEof_of_isKeyword h)
      (isBracket_of_isKeyword h))).bind fun _ t _ ht => ?_
    exact (expression_pairs hg).bind fun e u _ he => .pure (ht.trans he)
  · refine .look (s.current.isKeyword .kwDefault) rfl
      (.ite (fun h => ?_) (fun _ => unexpected_ensures _))
    exact (Ensures.lift (pass_pairs (isEof_of_isKeyword h)
      (isBracket_of_isKeyword h))).bind fun _ t _ ht => .pure ht

/-- **A clause** is no node, but it has nodes. -/
theorem switchCase_pairs :
    Ensures root (switchCase g) ctx s (fun c t => s.Pairs c.parts t) := by
  refine .look s.here rfl ?_
  refine (caseTest_pairs hg).bind fun test? t _ htest => ?_
  refine (expectPunctuator_pairs .colon rfl).discard.bind
    fun _ u _ ⟨_, hu⟩ => ?_
  refine (Ensures.lift (statementList_pairs hg .switchCase)).bind
    fun xs v _ hxs => ?_
  exact .look (v.spanFrom s.here) rfl (.pure ((htest.later hu).trans hxs))

theorem switchCasesFrom_pairs (turns : Nat) {found : List SwitchCase}
    (hfound : r.Pairs (found.reverse.flatMap SwitchCase.parts) s) :
    Ensures root (switchCasesFrom g turns found) ctx s
      (fun cs t => r.Pairs (cs.flatMap SwitchCase.parts) t) := by
  induction turns generalizing s found with
  | zero => exact .pure hfound
  | succ turns ih =>
    refine .look (s.current.isPunctuator .rBrace) rfl
      (.ite (fun _ => .pure hfound) (fun _ => ?_))
    exact (switchCase_pairs hg).bind fun c t _ hc => ih (hfound.concat hc)

theorem switchStatement_pairs (heof : s.current.isEof = false)
    (hplain : s.current.isBracket = false) :
    Ensures root (switchStatement g) ctx s
      (fun x t => s.Pairs [.statement x] t) := by
  refine (Ensures.lift (advance_pairs heof hplain)).bind
    fun _ t _ ⟨_, ht⟩ => ?_
  refine (condition_pairs hg).bind fun discriminant u _ hdisc => ?_
  refine (expectPunctuator_shifts .lBrace).discard.bind
    fun _ v _ ⟨_, hopens, hv⟩ => ?_
  refine .look ctx rfl ?_
  refine (switchCasesFrom_pairs hg _ (.refl v)).bind
    fun cases w _ hcases => ?_
  refine (close_pairs .rBrace hcases).bind fun _ x _ hx => ?_
  refine .look (x.spanFrom _) rfl (.pure (.wrap ?_ rfl rfl))
  have hclauses : u.Pairs (cases.flatMap SwitchCase.parts) x :=
    (Brackets.open_ hopens hv rfl hx).plain
  exact (ht.trans hdisc.plain).trans hclauses

/-! ## Loops -/

theorem whileStatement_pairs (heof : s.current.isEof = false)
    (hplain : s.current.isBracket = false) :
    Ensures root (whileStatement g) ctx s
      (fun x t => s.Pairs [.statement x] t) := by
  refine (Ensures.lift (advance_pairs heof hplain)).bind
    fun _ t _ ⟨_, ht⟩ => ?_
  refine (condition_pairs hg).bind fun test u _ htest => ?_
  refine (statement_pairs hg).bind fun body v _ hbody => ?_
  refine .look (v.spanFrom _) rfl (.pure (.wrap ?_ rfl rfl))
  exact ht.trans (htest.plain.trans hbody)

theorem doStatement_pairs (heof : s.current.isEof = false)
    (hplain : s.current.isBracket = false) :
    Ensures root (doStatement g) ctx s
      (fun x t => s.Pairs [.statement x] t) := by
  refine (Ensures.lift (advance_pairs heof hplain)).bind
    fun _ t _ ⟨_, ht⟩ => ?_
  refine hg.block.bind fun body u _ hbody => ?_
  refine (expectKeyword_pairs _).discard.bind fun _ v _ ⟨_, _, hv⟩ => ?_
  refine (condition_pairs hg).bind fun test w _ htest => ?_
  refine (Ensures.lift (terminator_pairs false)).bind fun _ x _ hx => ?_
  refine .look (x.spanFrom _) rfl (.pure (.wrap ?_ rfl rfl))
  exact (ht.trans (hbody.later hv)).trans (htest.plain.later hx)

theorem headerPart_pairs (closer : Punctuator) :
    Ensures root (headerPart g closer) ctx s
      (fun e t => s.Pairs [.expression e] t) :=
  tolerant_pairs .forHeader (expressionBefore_pairs hg closer)

theorem optionalHeaderPart_pairs (closer : Punctuator) :
    Ensures root (optionalHeaderPart g closer) ctx s
      (fun e? t => s.Pairs (e?.toList.map .expression) t) := by
  refine .look (s.current.isPunctuator closer) rfl
    (.ite (fun _ => .pure (.refl s)) (fun _ => ?_))
  exact (headerPart_pairs hg closer).bind fun e t _ he => .pure he

theorem headerInit_pairs :
    Ensures root (headerInit g) ctx s
      (fun i? t => s.Pairs (i?.toList.map ForInit.part) t) := by
  refine .look s.current rfl
    (.ite (fun _ => .pure (.refl s)) (fun _ => .ite (fun h => ?_)
      (fun _ => ?_)))
  · obtain ⟨kind, hkind⟩ := Option.isSome_iff_exists.1 h
    refine (Ensures.withReader Context.Within.withoutIn
      (variableDeclaration_pairs hg (isEof_of_varKind? hkind)
        (isBracket_of_varKind? hkind))).bind
      fun ⟨kind, declarators, span⟩ t _ hd => ?_
    exact .pure (hd span)
  · exact (Ensures.withReader Context.Within.withoutIn
      (tolerant_pairs .forHeader (expression_pairs hg))).bind
      fun e t _ he => .pure he

omit hg in
/-- **What a loop sets** has the tokens of the first part of its header. A
name without a value has no error below it. -/
theorem pairs_of_loopTarget? {init? : Option ForInit} {left : Expression}
    (h : loopTarget? init? = some left)
    (hinit : r.Pairs (init?.toList.map ForInit.part) s) :
    r.Pairs [.expression left] s := by
  unfold loopTarget? at h
  split at h
  · obtain rfl := Option.some.inj h
    exact hinit
  · rename_i d
    split at h
    · rename_i id span hd
      obtain rfl := Option.some.inj h
      obtain ⟨ts, htaken, hts⟩ := hinit
      have hchildren : (ForInit.declaration d).part.children
          = [.identifier id] := by
        rw [ForInit.part, Node.children, hd]
        rfl
      have hid : Paired ts [.identifier id] :=
        hts.of_child hchildren rfl (.intro rfl (List.forall_mem_nil _))
      exact ⟨ts, htaken, .wrap hid rfl rfl⟩
    · cases h
  · cases h

theorem eachHeader_pairs {init? : Option ForInit}
    (heof : s.current.isEof = false) (hplain : s.current.isBracket = false)
    (hinit : r.Pairs (init?.toList.map ForInit.part) s) :
    Ensures root (eachHeader g init?) ctx s (fun a t =>
      r.Pairs [.expression a.1, .expression a.2] t) := by
  unfold eachHeader
  split
  · exact unexpected_ensures _
  · rename_i left hleft
    refine (Ensures.lift (pass_pairs heof hplain)).bind fun _ t _ ht => ?_
    refine (headerPart_pairs hg _).bind fun right u _ hright => .pure ?_
    exact ((pairs_of_loopTarget? hleft hinit).later ht).trans hright

/-- **The header of a loop.** -/
theorem forHeader_pairs :
    Ensures root (forHeader g) ctx s
      (fun header t => s.Pairs header.parts t) := by
  refine (headerInit_pairs hg).bind fun init? t _ hinit => ?_
  dsimp only
  refine .look (t.current.isKeyword .kwIn) rfl
    (.ite (fun h => ?_) (fun _ => ?_))
  · exact (eachHeader_pairs hg (isEof_of_isKeyword h)
      (isBracket_of_isKeyword h) hinit).bind fun a u _ ha => .pure ha
  refine .look (t.current.isWord "of") rfl
    (.ite (fun h => ?_) (fun _ => ?_))
  · exact (eachHeader_pairs hg (isEof_of_isWord h) (isBracket_of_isWord h)
      hinit).bind fun a u _ ha => .pure ha
  refine (expectPunctuator_pairs .semicolon rfl).discard.bind
    fun _ u _ ⟨_, hu⟩ => ?_
  refine (optionalHeaderPart_pairs hg _).bind fun test? v _ htest => ?_
  refine (expectPunctuator_pairs .semicolon rfl).discard.bind
    fun _ w _ ⟨_, hw⟩ => ?_
  refine (optionalHeaderPart_pairs hg _).bind
    fun update? x _ hupdate => .pure ?_
  exact (((hinit.later hu).trans htest).later hw).trans hupdate

theorem forStatement_pairs (heof : s.current.isEof = false)
    (hplain : s.current.isBracket = false) :
    Ensures root (forStatement g) ctx s
      (fun x t => s.Pairs [.statement x] t) := by
  refine (Ensures.lift (advance_pairs heof hplain)).bind
    fun _ t _ ⟨_, ht⟩ => ?_
  refine (expectPunctuator_shifts .lParen).discard.bind
    fun _ u _ ⟨_, hopens, hu⟩ => ?_
  refine hg.forHeader.bind fun header v _ hheader => ?_
  refine (close_pairs .rParen hheader).bind fun _ w _ hw => ?_
  refine (statement_pairs hg).bind fun body x _ hbody => ?_
  refine .look (x.spanFrom _) rfl (.pure ?_)
  have hparts := ht.trans ((Brackets.open_ hopens hu rfl hw).plain.trans hbody)
  cases header with
  | counting | overKeys | overValues => exact .wrap hparts rfl rfl

/-! ## Blocks and exceptions -/

/-- **A block** is a node in braces. -/
theorem blockFrom_pairs :
    Ensures root (blockFrom g) ctx s (fun b t => s.Pairs [.block b] t) := by
  refine (expectPunctuator_shifts _).bind fun opening t hst ⟨hp, ht⟩ => ?_
  refine (Ensures.lift (statementList_pairs hg .brace)).bind
    fun body u htu hbody => ?_
  refine (close_pairs .rBrace hbody).bind fun _ v huv hv => ?_
  refine .look (v.spanFrom opening.span.start) rfl (.pure ?_)
  have hopen : s.Brackets .lBrace (body.map .statement) v :=
    .open_ hp ht rfl hv
  rw [ht.start_eq]
  exact hopen.node rfl rfl rfl rfl
    (spanFrom_eq (hopen.past (hst.trans (htu.trans huv))))

theorem catchParameter?_pairs :
    Ensures root (catchParameter? g) ctx s
      (fun id? t => s.Pairs (id?.toList.map .identifier) t) := by
  refine (Ensures.lift (eat_shifts .lParen)).bind fun eaten t _ ht => ?_
  cases eaten with
  | false => exact .pure ht
  | true =>
    obtain ⟨hopens, _, ht⟩ := ht
    refine hg.catchParameter.bind fun param u _ hparam => ?_
    refine (close_pairs .rParen hparam).bind fun _ v _ hv => .pure ?_
    exact (Brackets.open_ hopens ht rfl hv).plain

theorem catchClause?_pairs :
    Ensures root (catchClause? g) ctx s (fun c? t =>
      s.Pairs ((c?.map CatchClause.parts).getD []) t) := by
  refine .look (s.current.isKeyword .kwCatch) rfl
    (.ite (fun h => ?_) (fun _ => .pure (.refl s)))
  refine (Ensures.lift (advance_pairs (isEof_of_isKeyword h)
    (isBracket_of_isKeyword h))).bind fun _ t _ ⟨_, ht⟩ => ?_
  refine (catchParameter?_pairs hg).bind fun param? u _ hparam => ?_
  refine hg.block.bind fun body v _ hbody => ?_
  refine .look (v.spanFrom _) rfl (.pure ?_)
  exact ht.trans (hparam.trans hbody)

theorem finallyBlock?_pairs :
    Ensures root (finallyBlock? g) ctx s
      (fun b? t => s.Pairs (b?.toList.map .block) t) := by
  refine .look (s.current.isKeyword .kwFinally) rfl
    (.ite (fun h => ?_) (fun _ => .pure (.refl s)))
  refine (Ensures.lift (pass_pairs (isEof_of_isKeyword h)
    (isBracket_of_isKeyword h))).bind fun _ t _ ht => ?_
  exact hg.block.bind fun body u _ hbody => .pure (ht.trans hbody)

theorem tryStatement_pairs (heof : s.current.isEof = false)
    (hplain : s.current.isBracket = false) :
    Ensures root (tryStatement g) ctx s
      (fun x t => s.Pairs [.statement x] t) := by
  refine (Ensures.lift (advance_pairs heof hplain)).bind
    fun _ t _ ⟨_, ht⟩ => ?_
  refine hg.block.bind fun body u _ hbody => ?_
  refine (catchClause?_pairs hg).bind fun handler? v _ hhandler => ?_
  refine (finallyBlock?_pairs hg).bind fun finalizer? w _ hfinalizer => ?_
  refine .look (w.spanFrom _) rfl (.pure (.wrap ?_ rfl rfl))
  exact ht.trans (hbody.trans (hhandler.trans hfinalizer))

/-! ## Ways out -/

omit hg in
theorem jumpStatement_pairs {make : Span → Statement}
    (hmake : ∀ span, (make span).children = [])
    (heof : s.current.isEof = false) (hplain : s.current.isBracket = false) :
    Ensures root (jumpStatement make) ctx s
      (fun x t => s.Pairs [.statement x] t) := by
  refine (Ensures.lift (advance_pairs heof hplain)).bind
    fun _ t _ ⟨_, ht⟩ => ?_
  refine (Ensures.lift (terminator_pairs true)).bind fun _ u _ hu => ?_
  refine .look (u.spanFrom _) rfl (.pure (.wrap ?_ rfl rfl))
  rw [Node.children, hmake]
  exact ht.trans hu

theorem optionalValue_pairs :
    Ensures root (optionalValue g) ctx s
      (fun e? t => s.Pairs (e?.toList.map .expression) t) := by
  refine .look (s.current.isPunctuator .semicolon || s.newlineBefore
    || s.atListEnd ctx) rfl
    (.ite (fun _ => .pure (.refl s)) (fun _ => ?_))
  exact (expression_pairs hg).bind fun e t _ he => .pure he

theorem valueStatement_pairs
    {make : Option Expression → Span → Statement}
    (hmake : ∀ e? span, (make e? span).children = e?.toList.map .expression)
    (heof : s.current.isEof = false) (hplain : s.current.isBracket = false) :
    Ensures root (valueStatement g make) ctx s
      (fun x t => s.Pairs [.statement x] t) := by
  refine (Ensures.lift (advance_pairs heof hplain)).bind
    fun _ t _ ⟨_, ht⟩ => ?_
  refine (optionalValue_pairs hg).bind fun e? u _ he => ?_
  refine (Ensures.lift (terminator_pairs true)).bind fun _ v _ hv => ?_
  refine .look (v.spanFrom _) rfl (.pure (.wrap ?_ rfl rfl))
  rw [Node.children, hmake]
  exact (ht.trans he).later hv

theorem throwStatement_pairs (heof : s.current.isEof = false)
    (hplain : s.current.isBracket = false) :
    Ensures root (throwStatement g) ctx s
      (fun x t => s.Pairs [.statement x] t) := by
  refine (Ensures.lift (advance_pairs heof hplain)).bind
    fun _ t _ ⟨_, ht⟩ => ?_
  refine (expression_pairs hg).bind fun e u _ he => ?_
  refine (Ensures.lift (terminator_pairs true)).bind fun _ v _ hv => ?_
  refine .look (v.spanFrom _) rfl (.pure (.wrap ?_ rfl rfl))
  exact (ht.trans he).later hv

/-! ## Any statement -/

theorem keywordStatement_pairs {k : Keyword}
    (hk : s.current.kind = .keyword k) :
    Ensures root (keywordStatement g k) ctx s
      (fun x t => s.Pairs [.statement x] t) := by
  have heof : s.current.isEof = false := isEof_eq_false hk nofun
  have hplain : s.current.isBracket = false := Token.isBracket_of_kind hk
  unfold keywordStatement
  split
  · exact exportStatement_pairs hg heof hplain
  · exact importStatement_pairs hg heof hplain
  · exact declarationStatement_pairs hg heof hplain
  · exact declarationStatement_pairs hg heof hplain
  · exact declarationStatement_pairs hg heof hplain
  · exact conditionalStatement_pairs hg heof hplain
  · exact switchStatement_pairs hg heof hplain
  · exact forStatement_pairs hg heof hplain
  · exact whileStatement_pairs hg heof hplain
  · exact doStatement_pairs hg heof hplain
  · exact tryStatement_pairs hg heof hplain
  · exact jumpStatement_pairs (fun _ => rfl) heof hplain
  · exact jumpStatement_pairs (fun _ => rfl) heof hplain
  · exact valueStatement_pairs hg (fun _ _ => rfl) heof hplain
  · exact valueStatement_pairs hg (fun _ _ => rfl) heof hplain
  · exact throwStatement_pairs hg heof hplain
  · exact expressionStatement_pairs hg

theorem statementFrom_pairs :
    Ensures root (statementFrom g) ctx s
      (fun x t => s.Pairs [.statement x] t) := by
  refine .look s.current rfl ?_
  split
  case h_1 k hk => exact keywordStatement_pairs hg hk
  case h_2 => exact hg.block.bind fun b t _ hb => .pure (.wrap hb rfl rfl)
  case h_3 hk =>
    refine (Ensures.lift (advance_pairs (isEof_eq_false hk (by simp))
      (Token.isBracket_of_kind hk))).bind fun _ t _ htook => ?_
    obtain ⟨-, ht⟩ := htook
    exact .pure (.wrap ht rfl rfl)
  case h_4 => exact expressionStatement_pairs hg

/-- **A whole script.** -/
theorem script_pairs :
    Action.Ensures root (script g) root s
      (fun xs t => s.Pairs (xs.map .statement) t) := by
  refine .look s.current rfl ?_
  refine (statementList_pairs hg .eof).bind fun xs t _ hxs => ?_
  dsimp only
  refine .ite (fun _ => ?_) (fun _ => .pure hxs)
  refine .bind (Q := fun _ u => t.Pairs [] u) ?_ fun _ u _ hu =>
    .pure (hxs.later hu)
  exact .look root rfl (Ensures.still (report_ensures _ _ _ _))

end Productions

/-! ## All levels -/

/-- **A production that counts as a level** reads what it does without being
one. -/
theorem guarded_pairs {p : Parse α} {parts : α → List Node}
    (hp : Ensures root p ctx s.enter
      (fun a t => s.enter.Pairs (parts a) t)) :
    Ensures root (guarded p) ctx s (fun a t => s.Pairs (parts a) t) :=
  .guarded hp (fun _ _ h => h.leave)

/-- **A production between brackets** reads what it does without them. -/
theorem inBrackets_pairs {p : Parse α} {parts : α → List Node}
    (hp : Ensures root p ctx.inBrackets s.enter
      (fun a t => s.enter.Pairs (parts a) t)) :
    Ensures root (inBrackets p) ctx s (fun a t => s.Pairs (parts a) t) :=
  guarded_pairs (.withReader Context.Within.inBrackets hp)

/-- So does one that closes the brackets itself. -/
theorem inBrackets_closes {p : Parse α} {parts : α → List Node}
    {closer : Punctuator}
    (hp : Ensures root p ctx.inBrackets s.enter
      (fun a t => s.enter.Closes closer (parts a) t)) :
    Ensures root (inBrackets p) ctx s
      (fun a t => s.Closes closer (parts a) t) :=
  .guarded (.withReader Context.Within.inBrackets hp) (fun _ _ h => h.leave)

end Parse

open Parse in
/-- **In a grammar of any number of levels the brackets are paired.** -/
theorem Grammar.levels_pairs (root : Context) (n : Nat) :
    (levels n).Pairs root := by
  induction n with
  | zero => exact exhausted_pairs
  | succ n hg =>
    exact
      { sound := levels_succ_sound hg.sound (fun _ _ _ => trivial)
        statement := guarded_pairs (statementFrom_pairs hg)
        block := guarded_pairs (blockFrom_pairs hg)
        expression := fun min _ _ =>
          guarded_pairs (expressionFrom_pairs hg min)
        bracketed := fun point closer _ _ => inBrackets_pairs
          (tolerant_pairs point (expressionBefore_pairs hg closer))
        consequent := inBrackets_pairs (assignment_pairs hg)
        arguments := inBrackets_closes (callArguments_pairs hg)
        elements := inBrackets_pairs (arrayElements_pairs hg)
        members := inBrackets_pairs (objectMembers_pairs hg)
        methods := inBrackets_pairs (classMethods_pairs hg)
        parameters := inBrackets_closes parameterNames_pairs
        forHeader := inBrackets_pairs (forHeader_pairs hg)
        catchParameter := inBrackets_pairs identifier_pairs
        importSpecifiers := inBrackets_pairs
          (specifiers_pairs (fun _ => importSpecifier_pairs))
        exportSpecifiers := inBrackets_pairs
          (specifiers_pairs (fun _ => exportSpecifier_pairs)) }

/-! ## Scripts -/

section Script

variable (options : Options) (table : OperatorTable) (source : List Char)

/-- **The tokens of a parse** and the statements that were made of them. The
last token is the one where the statements end. -/
theorem runScript_paired :
    ∃ ts last, (runScript source options table).2.read = ts ++ [last]
      ∧ Paired ts ((runScript source options table).1.map .statement) := by
  obtain ⟨ts, htaken, hts⟩ :=
    (Parse.script_pairs (Grammar.levels_pairs _ _) (.refl _)
      (State.initial_good (.ofSource source options table))).2
  refine ⟨ts, (runScript source options table).2.current, ?_, hts⟩
  change (runScript source options table).2.taken = _ at htaken
  rw [State.read, State.known, htaken, State.initial_taken]
  simp

/-- **Brackets close one another**, for all options, operators and texts.
Each node that has brackets begins with one, or reads one next behind what
it has in front of them, and ends with the one that closes it. What was read
between the two is balanced if the tokens of each error there are. -/
theorem parseWith_encloses :
    (Node.program (parseWith options table source).program).Everywhere
      (Node.Encloses (runScript source options table).2.read) := by
  obtain ⟨ts, last, hread, hts⟩ := runScript_paired options table source
  intro n hn
  rcases Node.mem_all_iff.1 hn with rfl | ⟨c, hc, hn⟩
  · exact .of_none rfl
  · rw [hread]
    exact (hts.encloses c hc n hn).among (List.prefix_append ts _).isInfix

/-- **No bracket is overlooked**: if the brackets of a text are not balanced,
there is an error whose tokens are not. -/
theorem parseWith_balanced
    (h : (Node.program (parseWith options table source).program).Whole
      (runScript source options table).2.read) :
    Balanced (runScript source options table).2.read.dropLast := by
  obtain ⟨ts, last, hread, hts⟩ := runScript_paired options table source
  rw [hread] at h ⊢
  rw [List.dropLast_concat]
  exact hts.balanced fun c hc => (Node.whole_of_child h hc).among
    (List.prefix_append ts _).isInfix

end Script

/-- An error between brackets that is not balanced: the parentheses end with
the one that closes what was opened in the error. -/
example :
    let source := "(function f(1)\x7b\x7d)".toList
    (Node.program (parse source).program).all.any (fun n =>
        n.bracketing?.isSome && n.span = ⟨0, 14⟩) = true
      ∧ ((readTokens source).filter fun t =>
          1 ≤ t.span.start && t.span.stop ≤ 13).map Token.isBracket
        = [false, false, true, false] := by
  decide +kernel

end ScriptTree
