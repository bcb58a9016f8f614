import ScriptTree.Proofs.Dump.Leaf

/-!
# The terms of trees that can be read back

Where a tree can be read back its term is legible. The names of the terms
are bare, and so are the marks that a term is given; all other atoms belong
to leaves. So a term is legible if the terms of the trees right below are
(`Node.Written`), for every node.
-/

namespace ScriptTree

open Sexp (Legible)

/-- **The term of a node** is legible, or its terms are if it has many. -/
def Node.Written : Node → Prop
  | statement s => s.term.Legible
  | block b => b.term.Legible
  | declaration d => d.term.Legible
  | expression e => e.term.Legible
  | function f => ∀ t ∈ f.terms, t.Legible
  | classDef c => c.term.Legible
  | method m => m.term.Legible
  | identifier id => id.Legible
  | literal l => l.term.Legible
  | error e => e.term.Legible
  | program _ => True

/-! ## Marks and names -/

/-- A flag is written as its name, if that needs no quotes. -/
theorem flagTerm_legible {name : String} (isSet : Bool)
    (h : name.toList.all isBare = true) :
    ∀ t ∈ flagTerm isSet name, t.Legible := by
  cases isSet with
  | false => exact List.forall_mem_nil _
  | true => exact List.forall_mem_singleton.2 (.mark h)

/-- The flavours of methods have names that need no quotes. -/
theorem MethodKind.terms_legible (kind : MethodKind) :
    ∀ t ∈ kind.terms, t.Legible := by
  cases kind with
  | method => exact List.forall_mem_nil _
  | get | set | generator =>
    exact List.forall_mem_singleton.2 (.mark (by decide))

/-- So have the kinds of declarations. -/
theorem VarKind.atom_legible (kind : VarKind) :
    (Sexp.atom kind.spelling).Legible := by
  cases kind <;> exact .mark (by decide)

/-- The mark for what is missing can be read back. -/
theorem underscore_legible : (Sexp.atom "_").Legible := .mark (by decide)

/-- Parameters can be read back if each of them can. -/
theorem paramsTerm_legible {params : List Identifier}
    (h : ∀ id ∈ params, id.Legible) : (paramsTerm params).Legible :=
  .node (by decide) (List.forall_mem_map.2 fun id hid => (h id hid).atom)

/-! ## Expressions -/

/-- The body of an arrow function. -/
theorem ArrowBody.written (b : ArrowBody) (ih : b.part.Written) :
    b.term.Legible := by
  cases b <;> exact ih

/-- A key is a name, a literal, or an expression in brackets. -/
theorem PropertyKey.written (key : PropertyKey) (ih : key.part.Written) :
    key.term.Legible := by
  cases key with
  | identifier id => exact Identifier.Legible.term ih
  | string l | number l => exact ih

/-- A member of an object, by its parts. -/
theorem ObjectMember.written (m : ObjectMember)
    (ih : ∀ n ∈ m.parts, n.Written) : m.term.Legible := by
  cases m with
  | pair key value span =>
    simp only [parts, List.forall_mem_cons] at ih
    refine .node (by decide) (List.forall_mem_cons.2 ⟨key.written ih.1, ?_⟩)
    exact List.forall_mem_singleton.2 ih.2.1
  | method m => exact ih _ List.mem_cons_self
  | error e => exact e.term_legible

/-- **Each kind of expression** can be read back if its parts can. -/
theorem Expression.written (e : Expression)
    (ih : ∀ n ∈ e.children, n.Written) : e.term.Legible := by
  cases e
  all_goals
    simp only [children, List.forall_mem_cons, List.forall_mem_append,
      List.forall_mem_map, List.forall_mem_flatMap, Node.Written] at ih
  case identifier id => exact ih.1.term
  case literal l => exact ih.1
  case classDef c => exact ih.1
  case error e => exact e.term_legible
  all_goals refine .node (by decide) ?_
  case receiver | super => exact List.forall_mem_nil _
  case object members span =>
    rw [memberTerms_eq]
    exact List.forall_mem_map.2 fun m hm => m.written (ih m hm)
  case array elements span =>
    rw [expressionTerms_eq]
    exact List.forall_mem_map.2 ih
  case function f | generator f => exact ih.1
  case arrow isAsync params body span =>
    refine List.forall_mem_append.2 ⟨flagTerm_legible _ (by decide), ?_⟩
    exact List.forall_mem_cons.2 ⟨paramsTerm_legible ih.1,
      List.forall_mem_singleton.2 (body.written ih.2.1)⟩
  case call callee arguments span =>
    rw [expressionTerms_eq]
    exact List.forall_mem_cons.2 ⟨ih.1, List.forall_mem_map.2 ih.2⟩
  case update operator leads argument span =>
    have hplace :
        (Sexp.atom (if leads then "prefix" else "postfix")).Legible := by
      cases leads <;> exact .mark (by decide)
    simp_all [Sexp.Legible.quote]
  all_goals simp_all [Sexp.Legible.quote, Identifier.Legible.atom]

/-! ## Functions and classes -/

/-- The name of a node that may have one. -/
theorem names_legible {id? : Option Identifier}
    (h : ∀ id ∈ id?.toList, id.Legible) :
    ∀ t ∈ id?.toList.map Identifier.atom, t.Legible :=
  List.forall_mem_map.2 fun id hid => (h id hid).atom

/-- A function, whose parameters and body are parts of it. -/
theorem Function.written (f : Function)
    (ih : ∀ n ∈ (Node.function f).children, n.Written) :
    ∀ t ∈ f.terms, t.Legible := by
  obtain ⟨id?, params, body, isAsync, span⟩ := f
  simp only [Node.children, List.forall_mem_append, List.forall_mem_map,
    List.forall_mem_singleton, Node.Written] at ih
  obtain ⟨⟨hid, hparams⟩, hbody⟩ := ih
  refine List.forall_mem_append.2 ⟨List.forall_mem_append.2
    ⟨flagTerm_legible _ (by decide), names_legible hid⟩, ?_⟩
  exact List.forall_mem_cons.2
    ⟨paramsTerm_legible hparams, List.forall_mem_singleton.2 hbody⟩

/-- A method, whose name may be any that a property has. -/
theorem Method.written (m : Method)
    (ih : ∀ n ∈ (Node.method m).children, n.Written) : m.term.Legible := by
  obtain ⟨isStatic, isAsync, kind, key, params, body, span⟩ := m
  simp only [Node.children, List.forall_mem_cons, List.forall_mem_append,
    List.forall_mem_map, Node.Written] at ih
  obtain ⟨hkey, hparams, hbody, -⟩ := ih
  refine .node (by decide) (List.forall_mem_append.2
    ⟨List.forall_mem_append.2 ⟨List.forall_mem_append.2
      ⟨flagTerm_legible _ (by decide), flagTerm_legible _ (by decide)⟩,
      kind.terms_legible⟩, ?_⟩)
  simp [hkey.atom, paramsTerm_legible hparams, hbody]

/-- A class, with its parent and its methods. -/
theorem Class.written (c : Class)
    (ih : ∀ n ∈ (Node.classDef c).children, n.Written) :
    c.term.Legible := by
  obtain ⟨id?, parent?, methods, span⟩ := c
  simp only [Node.children, List.forall_mem_append, List.forall_mem_map,
    Node.Written] at ih
  obtain ⟨⟨hid, hparent⟩, hmethods⟩ := ih
  refine .node (by decide) (List.forall_mem_append.2
    ⟨List.forall_mem_append.2 ⟨names_legible hid, ?_⟩, ?_⟩)
  · cases parent? with
    | none => exact List.forall_mem_nil _
    | some e =>
      have he : e.term.Legible := hparent e (by simp)
      exact List.forall_mem_singleton.2
        (.node (by decide) (List.forall_mem_singleton.2 he))
  · rw [methodTerms_eq]
    exact List.forall_mem_map.2 hmethods

/-- A block, statement by statement. -/
theorem Block.written (b : Block)
    (ih : ∀ n ∈ (Node.block b).children, n.Written) : b.term.Legible := by
  obtain ⟨body, span⟩ := b
  simp only [Node.children, List.forall_mem_map, Node.Written] at ih
  refine .node (by decide) ?_
  rw [statementTerms_eq]
  exact List.forall_mem_map.2 ih

/-! ## Statements -/

/-- An expression that may be missing. -/
theorem optionalTerms_legible {e? : Option Expression}
    (h : ∀ e ∈ e?.toList, e.term.Legible) :
    ∀ t ∈ optionalTerms e?, t.Legible := by
  cases e? with
  | none => exact List.forall_mem_nil _
  | some e => exact List.forall_mem_singleton.2 (h e (by simp))

/-- Where an expression is missing there is a mark for it. -/
theorem optionalTerm_legible {e? : Option Expression}
    (h : ∀ e ∈ e?.toList, e.term.Legible) : (optionalTerm e?).Legible := by
  cases e? with
  | none => exact underscore_legible
  | some e => exact h e (by simp)

/-- One binding, with or without its first value. -/
theorem Declarator.written (d : Declarator)
    (ih : ∀ n ∈ d.parts, n.Written) : d.term.Legible := by
  cases d with
  | binding id init? span =>
    simp only [parts, List.forall_mem_cons, List.forall_mem_map,
      Node.Written] at ih
    exact .node (by decide) (List.forall_mem_cons.2
      ⟨ih.1.term, optionalTerms_legible ih.2⟩)
  | error e => exact e.term_legible

/-- A declaration, binding by binding. -/
theorem VariableDeclaration.written (d : VariableDeclaration)
    (ih : ∀ n ∈ (Node.declaration d).children, n.Written) :
    d.term.Legible := by
  obtain ⟨kind, declarators, span⟩ := d
  simp only [Node.children, List.forall_mem_flatMap] at ih
  refine .node (by decide) (List.forall_mem_cons.2 ⟨kind.atom_legible, ?_⟩)
  rw [declaratorTerms_eq]
  exact List.forall_mem_map.2 fun d hd => d.written (ih d hd)

/-- A clause of a switch, with the statements in it. -/
theorem SwitchCase.written (c : SwitchCase)
    (ih : ∀ n ∈ c.parts, n.Written) : c.term.Legible := by
  obtain ⟨test?, consequent, span⟩ := c
  simp only [parts, List.forall_mem_append, List.forall_mem_map,
    Node.Written] at ih
  obtain ⟨htest, hconsequent⟩ := ih
  have hterms : ∀ t ∈ statementTerms consequent, t.Legible := by
    rw [statementTerms_eq]
    exact List.forall_mem_map.2 hconsequent
  cases test? with
  | none => exact .node (by decide) hterms
  | some test =>
    exact .node (by decide)
      (List.forall_mem_cons.2 ⟨htest test (by simp), hterms⟩)

/-- The first part of a header. -/
theorem ForInit.written (i : ForInit) (ih : i.part.Written) :
    i.term.Legible := by
  cases i <;> exact ih

/-- What is done about an exception, which may have a name. -/
theorem CatchClause.written (c : CatchClause)
    (ih : ∀ n ∈ c.parts, n.Written) : c.term.Legible := by
  obtain ⟨param?, body, span⟩ := c
  simp only [parts, List.forall_mem_append, List.forall_mem_map,
    List.forall_mem_singleton, Node.Written] at ih
  refine .node (by decide) (List.forall_mem_append.2 ⟨?_, ?_⟩)
  · exact List.forall_mem_map.2 fun id hid => (ih.1 id hid).term
  · exact List.forall_mem_singleton.2 ih.2

/-- A name of an import list, with the one it has here. -/
theorem ImportSpecifier.written (s : ImportSpecifier)
    (ih : ∀ n ∈ s.parts, n.Written) : s.term.Legible := by
  simp only [parts, List.forall_mem_cons, List.forall_mem_map,
    Node.Written] at ih
  exact .node (by decide) (List.forall_mem_cons.2
    ⟨ih.1.atom, names_legible ih.2⟩)

theorem ExportSpecifier.written (s : ExportSpecifier)
    (ih : ∀ n ∈ s.parts, n.Written) : s.term.Legible := by
  simp only [parts, List.forall_mem_cons, List.forall_mem_map,
    Node.Written] at ih
  exact .node (by decide) (List.forall_mem_cons.2
    ⟨ih.1.atom, names_legible ih.2⟩)

/-- The names an import binds. -/
theorem ImportClause.written (c : ImportClause)
    (ih : ∀ n ∈ c.parts, n.Written) : ∀ t ∈ c.terms, t.Legible := by
  obtain ⟨default?, whole?, named?, span⟩ := c
  simp only [parts, List.forall_mem_append, List.forall_mem_map,
    List.forall_mem_flatMap, Node.Written] at ih
  obtain ⟨⟨hdefault, hwhole⟩, hnamed⟩ := ih
  refine List.forall_mem_append.2 ⟨List.forall_mem_append.2
    ⟨List.forall_mem_map.2 fun id hid => (hdefault id hid).term,
      List.forall_mem_map.2 fun id hid => ?_⟩,
    List.forall_mem_map.2 fun specifiers hs => ?_⟩
  · exact .node (by decide)
      (List.forall_mem_singleton.2 (hwhole id hid).atom)
  · obtain rfl := Option.mem_toList.1 hs
    exact .node (by decide)
      (List.forall_mem_map.2 fun s hs => s.written (hnamed s hs))

/-- **Each kind of export**, by what it names. -/
theorem Export.written (e : Export) (ih : ∀ n ∈ e.parts, n.Written) :
    ∀ t ∈ e.terms, t.Legible := by
  cases e
  all_goals
    simp only [parts, List.forall_mem_cons, List.forall_mem_append,
      List.forall_mem_map, List.forall_mem_flatMap, Node.Written] at ih
  case all source =>
    exact List.forall_mem_cons.2
      ⟨.mark (by decide), List.forall_mem_singleton.2 ih.1⟩
  case named specifiers source? =>
    refine List.forall_mem_cons.2 ⟨.node (by decide) ?_,
      List.forall_mem_map.2 ih.2⟩
    exact List.forall_mem_map.2 fun s hs => s.written (ih.1 s hs)
  case declaration | bindings => exact List.forall_mem_singleton.2 ih.1
  case default =>
    exact List.forall_mem_cons.2
      ⟨.mark (by decide), List.forall_mem_singleton.2 ih.1⟩

/-- **Each kind of statement** can be read back if its parts can. -/
theorem Statement.written (s : Statement)
    (ih : ∀ n ∈ s.children, n.Written) : s.term.Legible := by
  cases s
  all_goals
    simp only [children, List.forall_mem_cons, List.forall_mem_append,
      List.forall_mem_map, List.forall_mem_flatMap, Node.Written] at ih
  case declaration d => exact ih.1
  case block b => exact ih.1
  case error e => exact e.term_legible
  all_goals refine .node (by decide) ?_
  case breakLoop | continueLoop | empty => exact List.forall_mem_nil _
  case conditional test consequent alternate? span =>
    obtain ⟨htest, hconsequent, halternate⟩ := ih
    cases alternate? <;> simp_all [alternateTerms]
  case switch discriminant cases span =>
    rw [caseTerms_eq]
    exact List.forall_mem_cons.2 ⟨ih.1,
      List.forall_mem_map.2 fun c hc => c.written (ih.2 c hc)⟩
  case forLoop init? test? update? body span =>
    obtain ⟨⟨⟨hinit, htest⟩, hupdate⟩, hbody⟩ := ih
    have hinit : (initTerm init?).Legible := by
      cases init? with
      | none => exact underscore_legible
      | some i => exact i.written (hinit i (by simp))
    simp [hinit, optionalTerm_legible htest, optionalTerm_legible hupdate,
      hbody.1]
  case forIn kind? left right body span
    | forOf kind? left right body span =>
    refine List.forall_mem_append.2 ⟨?_, by simp [ih]⟩
    exact List.forall_mem_map.2 fun k _ => k.atom_legible
  case tryBlock body handler? finalizer? span =>
    obtain ⟨hbody, hhandler, hfinalizer⟩ := ih
    refine List.forall_mem_cons.2 ⟨hbody, List.forall_mem_append.2 ⟨?_, ?_⟩⟩
    · cases handler? with
      | none => exact List.forall_mem_nil _
      | some c => exact List.forall_mem_singleton.2 (c.written hhandler)
    · cases finalizer? with
      | none => exact List.forall_mem_nil _
      | some b =>
        have hb : b.term.Legible := hfinalizer b (by simp)
        exact List.forall_mem_singleton.2
          (.node (by decide) (List.forall_mem_singleton.2 hb))
  case returnValue | yieldValue => exact optionalTerms_legible ih
  case importNames clause? source span =>
    refine List.forall_mem_append.2 ⟨?_, List.forall_mem_singleton.2 ih.2.1⟩
    cases clause? with
    | none => exact List.forall_mem_nil _
    | some c => exact c.written ih.1
  case exportNames e span => exact e.written ih
  all_goals simp_all

/-! ## Whole trees -/

/-- **The terms of a tree that can be read back** are legible. -/
theorem Node.Readable.written {n : Node} (h : n.Readable) : n.Written := by
  induction hsize : sizeOf n using Nat.strongRecOn generalizing n with
  | _ k ih =>
    have hbelow : ∀ c ∈ n.children, c.Written := fun c hc =>
      ih _ (hsize ▸ sizeOf_child_lt hc) (h.below c hc) rfl
    cases n with
    | statement s => exact s.written hbelow
    | block b => exact b.written hbelow
    | declaration d => exact d.written hbelow
    | expression e => exact e.written hbelow
    | function f => exact f.written hbelow
    | classDef c => exact c.written hbelow
    | method m => exact m.written hbelow
    | identifier id => exact h.identifier
    | literal l => exact h.literal.term
    | error e => exact e.term_legible
    | program => trivial

/-- **The term of a script that can be read back** is legible. -/
theorem Program.term_legible {p : Program}
    (h : (Node.program p).Readable) : p.term.Legible := by
  refine .node (by decide) ?_
  rw [statementTerms_eq]
  refine List.forall_mem_map.2 fun s hs => ?_
  exact (h.below (.statement s) (List.mem_map_of_mem hs)).written

end ScriptTree
