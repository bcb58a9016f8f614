import ScriptTree.Proofs.Dump.Told

/-!
# Statements from their terms

A statement is told by its term if what is right below it is, as an
expression is (`Expression.told`). Statements have more parts that may be
missing, and for each the term says by the name or the number of what it
shows which ones there are. With that every node of a tree is told by its
term (`Node.Readable.told`).
-/

namespace ScriptTree

/-! ## Names of terms -/

/-- A declaration is told under a name of its own. -/
theorem VariableDeclaration.term_eq (d : VariableDeclaration) :
    d.term = .node "var_declaration"
      (.atom d.kind.spelling :: declaratorTerms d.declarators) := by
  cases d
  rfl

/-- **The words for what a statement is**, one for each kind, in their
order. -/
def statementWords : List String :=
  ["expression_statement", "var_declaration", "if", "switch", "for",
    "for_in", "for_of", "while", "do", "try", "break", "continue", "return",
    "yield", "throw", "empty", "block", "import", "export", "error"]

/-- The name of a term. -/
def Sexp.name : Sexp → String
  | node name _ => name
  | atom _ => ""

/-- **What a statement is** can be told from its term. -/
theorem Statement.idxOf_name (s : Statement) :
    statementWords.idxOf s.term.name = s.ctorIdx := by
  cases s with
  | declaration d => cases d; rfl
  | block b => cases b; rfl
  | _ => rfl

/-- **The kind of a statement** is known by its term. -/
theorem Statement.ctorIdx_eq {s s' : Statement} (h : s.term = s'.term) :
    s.ctorIdx = s'.ctorIdx := by
  rw [← idxOf_name, ← idxOf_name, h]

/-- No expression is told as a declaration is. -/
theorem Expression.term_ne_declaration {e : Expression}
    {d : VariableDeclaration} : e.term ≠ d.term := by
  rw [d.term_eq]
  exact term_ne_node (by decide)

/-! ## Declarations -/

/-- An expression that may be missing is told by its term, if it is there. -/
theorem shownExpression?_eq {e? e?' : Option Expression}
    (ih : ∀ e ∈ e?, (Node.expression e).Told)
    (h' : ∀ e ∈ e?', (Node.expression e).Readable)
    (ht : optionalTerms e? = optionalTerms e?') :
    shownExpression? e? = shownExpression? e?' := by
  cases e? <;> cases e?' <;>
    simp only [optionalTerms, reduceCtorEq, List.cons.injEq, and_true] at ht
  · rfl
  · exact congrArg some (ih _ rfl _ (h' _ rfl) ht)

/-- The same where an underscore stands for one that is missing. -/
theorem shownExpression?_eq_of_optionalTerm {e? e?' : Option Expression}
    (ih : ∀ e ∈ e?, (Node.expression e).Told)
    (h' : ∀ e ∈ e?', (Node.expression e).Readable)
    (ht : optionalTerm e? = optionalTerm e?') :
    shownExpression? e? = shownExpression? e?' := by
  cases e? with
  | none =>
    cases e?' with
    | none => rfl
    | some e' => exact absurd ht.symm Expression.term_ne_atom
  | some e =>
    cases e?' with
    | none => exact absurd ht Expression.term_ne_atom
    | some e' => exact congrArg some (ih _ rfl _ (h' _ rfl) ht)

/-- The word that opens a declaration tells its kind. -/
theorem VarKind.eq_of_atom {kind kind' : VarKind}
    (h : Sexp.atom kind.spelling = .atom kind'.spelling) : kind = kind' := by
  cases kind <;> cases kind' <;> first
    | rfl
    | exact absurd (Sexp.atom.inj h) (by decide)

/-- One binding, or text in the place of one. -/
theorem Declarator.told (d : Declarator) {d' : Declarator}
    (ih : ∀ n ∈ d.parts, n.Told) (hparts' : ∀ n ∈ d'.parts, n.Readable)
    (ht : d.term = d'.term) : d.shown = d'.shown := by
  cases d with
  | binding id init? span =>
    cases d' with
    | binding id' init?' span' =>
      simp only [parts, List.forall_mem_cons, List.forall_mem_map,
        Option.mem_toList] at ih hparts'
      simp only [term, Sexp.node.injEq, List.cons.injEq, true_and] at ht
      rw [shown, shown, Identifier.eq_of_term ht.1,
        shownExpression?_eq ih.2 hparts'.2 ht.2]
    | error e' => simp [term, ErrorNode.term] at ht
  | error e =>
    cases d' with
    | binding id' init?' span' => simp [term, ErrorNode.term] at ht
    | error e' => exact congrArg Declarator.error (ErrorNode.eq_of_term ht)

/-- A declaration, by its word and its bindings. -/
theorem VariableDeclaration.told (d : VariableDeclaration)
    (ih : ∀ n ∈ (Node.declaration d).children, n.Told) :
    (Node.declaration d).Told := by
  intro d' hreadable' ht
  have hbelow' := hreadable'.below
  obtain ⟨kind, declarators, span⟩ := d
  obtain ⟨kind', declarators', span'⟩ := d'
  simp only [Node.children, List.forall_mem_flatMap] at ih hbelow'
  simp only [term, Sexp.node.injEq, List.cons.injEq, true_and] at ht
  have hterms := ht.2
  rw [declaratorTerms_eq, declaratorTerms_eq] at hterms
  have hdeclarators : declarators.map Declarator.shown
      = declarators'.map Declarator.shown :=
    map_shown_eq (R := fun d' => ∀ n ∈ d'.parts, n.Readable)
      (fun d hd d' hd' => d.told (ih d hd) hd') hbelow' hterms
  rw [shown, shown, shownDeclarators_eq, shownDeclarators_eq,
    VarKind.eq_of_atom ht.1, hdeclarators]

/-! ## Parts of statements -/

/-- A clause of a switch, or its default clause. -/
theorem SwitchCase.told (c : SwitchCase) {c' : SwitchCase}
    (ih : ∀ n ∈ c.parts, n.Told) (hparts' : ∀ n ∈ c'.parts, n.Readable)
    (ht : c.term = c'.term) : c.shown = c'.shown := by
  obtain ⟨test?, consequent, span⟩ := c
  obtain ⟨test?', consequent', span'⟩ := c'
  simp only [parts, List.forall_mem_append, List.forall_mem_map,
    Option.mem_toList] at ih hparts'
  have hconsequent (h : statementTerms consequent
      = statementTerms consequent') :
      shownStatements consequent = shownStatements consequent' := by
    rw [statementTerms_eq, statementTerms_eq] at h
    rw [shownStatements_eq, shownStatements_eq,
      map_shown_eq ih.2 hparts'.2 h]
  cases test? <;> cases test?' <;>
    simp only [term, Sexp.node.injEq, List.cons.injEq, true_and,
      String.reduceEq, false_and] at ht
  case none.none => rw [shown, shown, hconsequent ht]
  case some.some =>
    rw [shown, shown, hconsequent ht.2, shownExpression?, shownExpression?,
      ih.1 _ rfl _ (hparts'.1 _ rfl) ht.1]

/-- The first part of a header is known for a declaration or an expression. -/
theorem ForInit.told (i : ForInit) {i' : ForInit} (ih : i.part.Told)
    (hpart' : i'.part.Readable) (ht : i.term = i'.term) :
    i.shown = i'.shown := by
  cases i with
  | declaration d =>
    cases i' with
    | declaration d' => exact congrArg ForInit.declaration (ih _ hpart' ht)
    | expression e' => exact absurd ht.symm Expression.term_ne_declaration
  | expression e =>
    cases i' with
    | declaration d' => exact absurd ht Expression.term_ne_declaration
    | expression e' => exact congrArg ForInit.expression (ih _ hpart' ht)

/-- A first part that is missing is known to be. -/
theorem shownInit?_eq {i? i?' : Option ForInit}
    (ih : ∀ i ∈ i?, i.part.Told) (h' : ∀ i ∈ i?', i.part.Readable)
    (ht : initTerm i? = initTerm i?') : shownInit? i? = shownInit? i?' := by
  have hatom {i : ForInit} : i.term ≠ .atom "_" := by
    cases i with
    | declaration d => cases d; exact nofun
    | expression e => exact Expression.term_ne_atom
  cases i? with
  | none =>
    cases i?' with
    | none => rfl
    | some i' => exact absurd ht.symm hatom
  | some i =>
    cases i?' with
    | none => exact absurd ht hatom
    | some i' => exact congrArg some (i.told (ih i rfl) (h' i' rfl) ht)

/-- What is done about an exception, with the name for it. -/
theorem CatchClause.told (c : CatchClause) {c' : CatchClause}
    (ih : ∀ n ∈ c.parts, n.Told) (hparts' : ∀ n ∈ c'.parts, n.Readable)
    (ht : c.term = c'.term) : c.shown = c'.shown := by
  obtain ⟨param?, body, span⟩ := c
  obtain ⟨param?', body', span'⟩ := c'
  simp only [parts, List.forall_mem_append,
    List.forall_mem_singleton] at ih hparts'
  obtain ⟨hparam, hbody⟩ := List.append_inj' (Sexp.node.inj ht).2 rfl
  have hparam : param?.map (Identifier.move nowhere)
      = param?'.map (Identifier.move nowhere) :=
    option_map_shown_eq (R := fun _ => True)
      (fun _ _ _ _ h => Identifier.eq_of_term h) (fun _ _ => trivial) hparam
  rw [shown, shown, hparam, ih.2 _ hparts'.2 (List.cons.inj hbody).1]

/-! ## Modules -/

/-- A name of an import list is known but for its place. -/
theorem ImportSpecifier.eq_of_term {s s' : ImportSpecifier}
    (h : s.term = s'.term) : s.move nowhere = s'.move nowhere := by
  obtain ⟨himported, halias⟩ := List.cons.inj (Sexp.node.inj h).2
  rw [move, move, Identifier.eq_of_atom himported, id?_move_eq halias]
  rfl

theorem ExportSpecifier.eq_of_term {s s' : ExportSpecifier}
    (h : s.term = s'.term) : s.move nowhere = s'.move nowhere := by
  obtain ⟨hlocal, halias⟩ := List.cons.inj (Sexp.node.inj h).2
  rw [move, move, Identifier.eq_of_atom hlocal, id?_move_eq halias]
  rfl

/-- **The names an import binds** are told by their terms, since those of
its three parts have different names. -/
theorem ImportClause.eq_of_terms {c c' : ImportClause}
    (h : c.terms = c'.terms) : c.move nowhere = c'.move nowhere := by
  obtain ⟨default?, whole?, named?, span⟩ := c
  obtain ⟨default?', whole?', named?', span'⟩ := c'
  have hnamed (x? : Option (List ImportSpecifier)) :
      ∀ t ∈ x?.toList.map (fun specifiers => Sexp.node "named"
        (specifiers.map ImportSpecifier.term)),
        ¬∀ parts, t ≠ .node "named" parts :=
    List.forall_mem_map.2 fun _ _ h => h _ rfl
  have hnames (d? w? : Option Identifier) :
      ∀ t ∈ d?.toList.map Identifier.term
        ++ w?.toList.map (fun id => Sexp.node "namespace" [id.atom]),
        ∀ parts, t ≠ .node "named" parts := by
    refine List.forall_mem_append.2 ⟨?_, ?_⟩ <;>
      exact List.forall_mem_map.2 fun _ _ _ heq =>
        absurd (Sexp.node.inj heq).1 (by decide)
  have hwhole (x? : Option Identifier) :
      ∀ t ∈ x?.toList.map (fun id => Sexp.node "namespace" [id.atom]),
        ¬∀ parts, t ≠ .node "namespace" parts :=
    List.forall_mem_map.2 fun _ _ h => h _ rfl
  have hdefault (x? : Option Identifier) :
      ∀ t ∈ x?.toList.map Identifier.term,
        ∀ parts, t ≠ .node "namespace" parts :=
    List.forall_mem_map.2 fun _ _ _ heq =>
      absurd (Sexp.node.inj heq).1 (by decide)
  obtain ⟨hfront, hback⟩ := append_eq_of_kinds (hnames _ _) (hnamed _)
    (hnames _ _) (hnamed _) h
  obtain ⟨hdefaults, hwholes⟩ := append_eq_of_kinds (hdefault _) (hwhole _)
    (hdefault _) (hwhole _) hfront
  have hdefault? : default?.map (Identifier.move nowhere)
      = default?'.map (Identifier.move nowhere) :=
    option_map_shown_eq (R := fun _ => True)
      (fun _ _ _ _ h => Identifier.eq_of_term h) (fun _ _ => trivial)
      hdefaults
  have hwhole? : whole?.map (Identifier.move nowhere)
      = whole?'.map (Identifier.move nowhere) :=
    option_map_shown_eq (R := fun _ => True)
      (fun _ _ _ _ h => Identifier.eq_of_atom
        (List.cons.inj (Sexp.node.inj h).2).1) (fun _ _ => trivial) hwholes
  have hnamed? : named?.map (List.map (ImportSpecifier.move nowhere))
      = named?'.map (List.map (ImportSpecifier.move nowhere)) :=
    option_map_shown_eq (R := fun _ => True)
      (fun _ _ _ _ h => map_shown_eq (R := fun _ => True)
        (fun _ _ _ _ h => ImportSpecifier.eq_of_term h)
        (fun _ _ => trivial) (Sexp.node.inj h).2) (fun _ _ => trivial) hback
  rw [move, move, hdefault?, hwhole?, hnamed?]
  rfl

/-- An import without names shows less than one with names. -/
theorem ImportClause.terms_ne_nil {c : ImportClause} (h : c.Names) :
    c.terms ≠ [] := by
  obtain ⟨default?, whole?, named?, span⟩ := c
  cases default? <;> cases whole? <;> cases named? <;>
    simp_all [Names, terms]

/-- **The names an import binds** are told apart by how each is told. -/
theorem importTerms_eq {clause? clause?' : Option ImportClause}
    (h : ∀ c ∈ clause?, c.Names) (h' : ∀ c ∈ clause?', c.Names)
    (ht : (clause?.map ImportClause.terms).getD []
      = (clause?'.map ImportClause.terms).getD []) :
    clause?.map (ImportClause.move nowhere)
      = clause?'.map (ImportClause.move nowhere) := by
  cases clause? with
  | none =>
    cases clause?' with
    | none => rfl
    | some c' => exact absurd ht.symm (ImportClause.terms_ne_nil (h' c' rfl))
  | some c =>
    cases clause?' with
    | none => exact absurd ht (ImportClause.terms_ne_nil (h c rfl))
    | some c' => exact congrArg some (ImportClause.eq_of_terms ht)

/-- **What an export names** is known by its kind and its parts. -/
theorem Export.told (e : Export) {e' : Export}
    (ih : ∀ n ∈ e.parts, n.Told) (hparts' : ∀ n ∈ e'.parts, n.Readable)
    (ht : e.terms = e'.terms) : e.shown = e'.shown := by
  have hnamed {e : Expression} {parts : List Sexp} :
      e.term ≠ .node "named" parts := Expression.term_ne_node (by decide)
  have hdeclared {d : VariableDeclaration} {parts : List Sexp} :
      d.term ≠ .node "named" parts := by
    rw [d.term_eq]
    exact fun h => absurd (Sexp.node.inj h).1 (by decide)
  cases e with
  | all source =>
    cases e' with
    | all source' =>
      exact congrArg Export.all (ih (.literal source) List.mem_cons_self _
        (hparts' (.literal source') List.mem_cons_self).literal
        (List.cons.inj (List.cons.inj ht).2).1)
    | default => exact absurd (List.cons.inj ht).1 (by simp)
    | named => cases (List.cons.inj ht).1
    | declaration | bindings => cases (List.cons.inj ht).2
  | named specifiers source? =>
    cases e' with
    | named specifiers' source?' =>
      simp only [parts, List.forall_mem_append, List.forall_mem_map,
        Option.mem_toList] at ih hparts'
      obtain ⟨hhead, htail⟩ := List.cons.inj ht
      have hspecifiers : specifiers.map (ExportSpecifier.move nowhere)
          = specifiers'.map (ExportSpecifier.move nowhere) :=
        map_shown_eq (R := fun _ => True)
          (fun _ _ _ _ h => ExportSpecifier.eq_of_term h)
          (fun _ _ => trivial) (Sexp.node.inj hhead).2
      have hsource : source?.map (Literal.move nowhere)
          = source?'.map (Literal.move nowhere) :=
        option_map_shown_eq (R := Literal.Legible)
          (fun l hl => ih.2 l hl)
          (fun l hl => (hparts'.2 l hl).literal) htail
      rw [shown, shown, hspecifiers, hsource]
    | all | default => cases (List.cons.inj ht).1
    | declaration => exact absurd (List.cons.inj ht).1.symm hnamed
    | bindings => exact absurd (List.cons.inj ht).1.symm hdeclared
  | declaration e =>
    cases e' with
    | declaration e' =>
      exact congrArg Export.declaration (ih _ List.mem_cons_self _
        (hparts' _ List.mem_cons_self) (List.cons.inj ht).1)
    | all | default => cases (List.cons.inj ht).2
    | named => exact absurd (List.cons.inj ht).1 hnamed
    | bindings =>
      exact absurd (List.cons.inj ht).1 Expression.term_ne_declaration
  | bindings d =>
    cases e' with
    | bindings d' =>
      exact congrArg Export.bindings (ih _ List.mem_cons_self _
        (hparts' _ List.mem_cons_self) (List.cons.inj ht).1)
    | all | default => cases (List.cons.inj ht).2
    | named => exact absurd (List.cons.inj ht).1 hdeclared
    | declaration =>
      exact absurd (List.cons.inj ht).1.symm Expression.term_ne_declaration
  | default e =>
    cases e' with
    | default e' =>
      exact congrArg Export.default (ih _ List.mem_cons_self _
        (hparts' _ List.mem_cons_self)
        (List.cons.inj (List.cons.inj ht).2).1)
    | all => exact absurd (List.cons.inj ht).1 (by simp)
    | named => cases (List.cons.inj ht).1
    | declaration | bindings => cases (List.cons.inj ht).2

/-! ## Statements -/

theorem kind?_eq {kind? kind?' : Option VarKind}
    (h : kind?.toList.map (fun k => Sexp.atom k.spelling)
      = kind?'.toList.map (fun k => Sexp.atom k.spelling)) :
    kind? = kind?' := by
  have hmap : kind?.map id = kind?'.map id :=
    option_map_shown_eq (R := fun _ => True)
      (fun _ _ _ _ h => VarKind.eq_of_atom h) (fun _ _ => trivial) h
  simpa using hmap

/-- A branch that is missing is known to be. -/
theorem shownStatement?_eq {s? s?' : Option Statement}
    (ih : ∀ s ∈ s?, (Node.statement s).Told)
    (h' : ∀ s ∈ s?', (Node.statement s).Readable)
    (ht : alternateTerms s? = alternateTerms s?') :
    shownStatement? s? = shownStatement? s?' := by
  cases s? <;> cases s?' <;>
    simp only [alternateTerms, reduceCtorEq, List.cons.injEq,
      and_true] at ht
  · rfl
  · exact congrArg some (ih _ rfl _ (h' _ rfl) ht)

theorem shownHandler?_eq {c? c?' : Option CatchClause}
    (ih : ∀ n ∈ (c?.map CatchClause.parts).getD [], n.Told)
    (h' : ∀ n ∈ (c?'.map CatchClause.parts).getD [], n.Readable)
    (ht : catchTerms c? = catchTerms c?') :
    shownHandler? c? = shownHandler? c?' := by
  cases c? <;> cases c?' <;>
    simp only [catchTerms, reduceCtorEq, List.cons.injEq, and_true] at ht
  · rfl
  · exact congrArg some (CatchClause.told _ ih h' ht)

theorem shownBlock?_eq {b? b?' : Option Block}
    (ih : ∀ b ∈ b?, (Node.block b).Told)
    (h' : ∀ b ∈ b?', (Node.block b).Readable)
    (ht : finallyTerms b? = finallyTerms b?') :
    shownBlock? b? = shownBlock? b?' := by
  cases b? <;> cases b?' <;>
    simp only [finallyTerms, reduceCtorEq, List.cons.injEq,
      Sexp.node.injEq, true_and, and_true] at ht
  · rfl
  · exact congrArg some (ih _ rfl _ (h' _ rfl) ht)

/-- What is done about an exception is told under a name of its own. -/
theorem catchTerms_named (c? : Option CatchClause) :
    ∀ t ∈ catchTerms c?, ∃ parts, t = .node "catch" parts := by
  cases c? with
  | none => exact nofun
  | some c => cases c; exact List.forall_mem_singleton.2 ⟨_, rfl⟩

/-- What is done in any case is told under another one. -/
theorem finallyTerms_named (b? : Option Block) :
    ∀ t ∈ finallyTerms b?, ¬∃ parts, t = .node "catch" parts := by
  cases b? with
  | none => exact nofun
  | some b =>
    rintro t ht ⟨parts, rfl⟩
    have hname := List.mem_singleton.1 ht
    exact absurd (Sexp.node.inj hname).1 (by decide)

/-- **A statement** is told by its term if what is right below it is. -/
theorem Statement.told (s : Statement) (h : s.Seated fun _ _ => True)
    (ih : ∀ n ∈ s.children, n.Told) : (Node.statement s).Told := by
  intro s' hreadable' ht
  have hsame := ctorIdx_eq ht
  -- The two are of one kind, since their terms are.
  cases s <;> cases s' <;>
    simp only [Statement.ctorIdx, reduceCtorEq, Nat.reduceEqDiff] at hsame
  all_goals
    have h' := hreadable'.seated
    have hbelow' := hreadable'.below
    simp only [Node.children, children, List.forall_mem_cons,
      List.forall_mem_append, List.forall_mem_map, List.forall_mem_flatMap,
      List.not_mem_nil, Option.mem_toList, false_implies, implies_true,
      and_true] at ih hbelow'
  case declaration.declaration d d' =>
    exact congrArg Statement.declaration (ih _ hbelow' ht)
  case block.block b b' => exact congrArg Statement.block (ih _ hbelow' ht)
  case error.error node node' =>
    exact congrArg Statement.error (ErrorNode.eq_of_term ht)
  case breakLoop.breakLoop | continueLoop.continueLoop | empty.empty => rfl
  case forIn.forIn | forOf.forOf =>
    obtain ⟨hkind, hrest⟩ := List.append_inj' (Sexp.node.inj ht).2 rfl
    simp only [List.cons.injEq, and_true] at hrest
    rw [shown, shown, kind?_eq hkind, ih.1 _ hbelow'.1 hrest.1,
      ih.2.1 _ hbelow'.2.1 hrest.2.1, ih.2.2 _ hbelow'.2.2 hrest.2.2]
  case importNames.importNames =>
    obtain ⟨hclause, hsource⟩ := List.append_inj' (Sexp.node.inj ht).2 rfl
    rw [shown, shown, importTerms_eq h.1 h'.1 hclause,
      ih.2 _ hbelow'.2.literal (List.cons.inj hsource).1]
  all_goals
    simp only [term, Sexp.node.injEq, List.cons.injEq, true_and,
      and_true] at ht
  case expression.expression | throwValue.throwValue =>
    rw [shown, shown, ih _ hbelow' ht]
  case conditional.conditional =>
    rw [shown, shown, ih.1 _ hbelow'.1 ht.1, ih.2.1 _ hbelow'.2.1 ht.2.1,
      shownStatement?_eq ih.2.2 hbelow'.2.2 ht.2.2]
  case switch.switch discriminant cases span discriminant' cases' span' =>
    rw [caseTerms_eq, caseTerms_eq] at ht
    have hcases : cases.map SwitchCase.shown
        = cases'.map SwitchCase.shown :=
      map_shown_eq (R := fun c' => ∀ n ∈ c'.parts, n.Readable)
        (fun c hc c' hc' => c.told (ih.2 c hc) hc') hbelow'.2 ht.2
    rw [shown, shown, ih.1 _ hbelow'.1 ht.1, shownCases_eq, shownCases_eq,
      hcases]
  case forLoop.forLoop =>
    obtain ⟨⟨⟨hinit, htest⟩, hupdate⟩, hbody⟩ := hbelow'
    rw [shown, shown, shownInit?_eq ih.1.1.1 hinit ht.1,
      shownExpression?_eq_of_optionalTerm ih.1.1.2 htest ht.2.1,
      shownExpression?_eq_of_optionalTerm ih.1.2 hupdate ht.2.2.1,
      ih.2 _ hbody ht.2.2.2]
  case whileLoop.whileLoop | doWhile.doWhile =>
    rw [shown, shown, ih.1 _ hbelow'.1 ht.1, ih.2 _ hbelow'.2 ht.2]
  case tryBlock.tryBlock =>
    obtain ⟨hhandler, hfinalizer⟩ := append_eq_of_kinds
      (catchTerms_named _) (finallyTerms_named _) (catchTerms_named _)
      (finallyTerms_named _) ht.2
    rw [shown, shown, ih.1 _ hbelow'.1 ht.1,
      shownHandler?_eq ih.2.1 hbelow'.2.1 hhandler,
      shownBlock?_eq ih.2.2 hbelow'.2.2 hfinalizer]
  case returnValue.returnValue | yieldValue.yieldValue =>
    rw [shown, shown, shownExpression?_eq ih hbelow' ht]
  case exportNames.exportNames e span e' span' =>
    rw [shown, shown, e.told ih hbelow' ht]

/-! ## Whole trees -/

/-- **Every node of a tree that can be read back** is told by its term. -/
theorem Node.Readable.told {n : Node} (h : n.Readable) : n.Told := by
  induction hsize : sizeOf n using Nat.strongRecOn generalizing n with
  | _ k ih =>
    have hbelow : ∀ c ∈ n.children, c.Told := fun c hc =>
      ih _ (hsize ▸ sizeOf_child_lt hc) (h.below c hc) rfl
    cases n with
    | statement s => exact s.told h.seated hbelow
    | block b => exact b.told hbelow
    | declaration d => exact d.told hbelow
    | expression e => exact e.told h.seated hbelow
    | function f => exact f.told hbelow
    | classDef c => exact c.told hbelow
    | method m => exact m.told hbelow
    | literal l => exact fun l' hl' => Literal.eq_of_term h.literal hl'
    | program | identifier | error => trivial

/-- **The statements of a script that can be read back** are told by its
term. -/
theorem Program.shown_eq_of_term_eq {p p' : Program}
    (h : (Node.program p).Readable) (h' : (Node.program p').Readable)
    (ht : p.term = p'.term) :
    p.body.map Statement.shown = p'.body.map Statement.shown := by
  have hterms := (Sexp.node.inj ht).2
  rw [statementTerms_eq, statementTerms_eq] at hterms
  exact map_shown_eq
    (fun s hs => (h.below (.statement s) (List.mem_map_of_mem hs)).told)
    (fun s hs => h'.below (.statement s) (List.mem_map_of_mem hs)) hterms

end ScriptTree
