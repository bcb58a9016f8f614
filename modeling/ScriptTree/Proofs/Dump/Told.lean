import ScriptTree.Proofs.Dump.Leaf

/-!
# Trees from their terms

The name of a term says what kind of part it is the term of, and the terms
in it are those of the parts below, in order. Where a part may be missing,
the kinds of the terms around it tell whether it is. The one place where
they do not is the front of a function (`headingShown_eq`).

So if the parts right below are told by their terms, the part itself is
(`Node.Told`), for every kind of part; and then a whole tree is told by its
term, as far as it is shown (`Node.Readable.told`).
-/

namespace ScriptTree

/-- **A node that is told by its term**: no other one that can be read back
has the same term and is not the same, as far as it is shown. -/
def Node.Told : Node → Prop
  | statement s => ∀ s', (statement s').Readable → s.term = s'.term →
    s.shown = s'.shown
  | block b => ∀ b', (block b').Readable → b.term = b'.term →
    b.shown = b'.shown
  | declaration d => ∀ d', (declaration d').Readable → d.term = d'.term →
    d.shown = d'.shown
  | expression e => ∀ e', (expression e').Readable → e.term = e'.term →
    e.shown = e'.shown
  | function f => ∀ f', (function f').Readable → f.terms = f'.terms →
    f.shown = f'.shown
  | classDef c => ∀ c', (classDef c').Readable → c.term = c'.term →
    c.shown = c'.shown
  | method m => ∀ m', (method m').Readable → m.term = m'.term →
    m.shown = m'.shown
  | literal l => ∀ l' : Literal, l'.Legible → l.term = l'.term →
    l.move nowhere = l'.move nowhere
  | program _ | identifier _ | error _ => True

/-! ## Parts side by side -/

section Lists

variable {α β : Type} {term : α → Sexp} {shown : α → β} {R : α → Prop}

/-- **Parts side by side** are told by their terms if each of them is. -/
theorem map_shown_eq {xs ys : List α}
    (h : ∀ x ∈ xs, ∀ y, R y → term x = term y → shown x = shown y)
    (hys : ∀ y ∈ ys, R y) (ht : xs.map term = ys.map term) :
    xs.map shown = ys.map shown := by
  induction xs generalizing ys with
  | nil =>
    cases ys with
    | nil => rfl
    | cons => exact nomatch ht
  | cons x xs ih =>
    cases ys with
    | nil => exact nomatch ht
    | cons y ys =>
      obtain ⟨hx, hxs⟩ := List.forall_mem_cons.1 h
      obtain ⟨hy, hys⟩ := List.forall_mem_cons.1 hys
      obtain ⟨hhead, htail⟩ := List.cons.inj ht
      rw [List.map_cons, List.map_cons, hx y hy hhead, ih hxs hys htail]

/-- A part that may be missing. -/
theorem option_map_shown_eq {x? y? : Option α}
    (h : ∀ x ∈ x?, ∀ y, R y → term x = term y → shown x = shown y)
    (hys : ∀ y ∈ y?, R y) (ht : x?.toList.map term = y?.toList.map term) :
    x?.map shown = y?.map shown := by
  have hlists : x?.toList.map shown = y?.toList.map shown :=
    map_shown_eq (fun x hx => h x (Option.mem_toList.1 hx))
      (fun y hy => hys y (Option.mem_toList.1 hy)) ht
  cases x? <;> cases y? <;> simp_all

end Lists

/-- The names of parameters. -/
theorem params_move_eq {params params' : List Identifier}
    (h : paramsTerm params = paramsTerm params') :
    params.map (Identifier.move nowhere)
      = params'.map (Identifier.move nowhere) :=
  map_shown_eq (R := fun _ => True)
    (fun _ _ _ _ h => Identifier.eq_of_atom h) (fun _ _ => trivial)
    (Sexp.node.inj h).2

/-- A name that may be missing. -/
theorem id?_move_eq {id? id?' : Option Identifier}
    (h : id?.toList.map Identifier.atom = id?'.toList.map Identifier.atom) :
    id?.map (Identifier.move nowhere)
      = id?'.map (Identifier.move nowhere) :=
  option_map_shown_eq (R := fun _ => True)
    (fun _ _ _ _ h => Identifier.eq_of_atom h) (fun _ _ => trivial) h

/-! ## Names of terms -/

/-- The names of the terms of literals. -/
def literalWords : List String :=
  ["number", "string", "template", "regex", "boolean", "null", "undefined"]

/-- **The words for what an expression is**, one for each kind, in their
order. -/
def expressionWords : List String :=
  ["identifier", "literal", "this", "super", "object", "array", "function",
    "generator", "arrow", "class", "call", "new", "await", "member",
    "subscript", "assign", "compound", "conditional", "binary", "unary",
    "update", "sequence", "paren", "error"]

/-- **The word for what an expression is** that has the term. All literals
have one word, and an assignment with an operator is told from one without
by the number of its parts. -/
def Sexp.expressionWord : Sexp → String
  | node name parts =>
    if name ∈ literalWords then "literal"
    else if name = "assign" ∧ parts.length = 3 then "compound"
    else name
  | atom _ => ""

theorem Literal.exists_word (l : Literal) :
    ∃ name ∈ literalWords, ∃ parts, l.term = .node name parts := by
  unfold Literal.term
  split <;> exact ⟨_, by decide, _, rfl⟩

@[simp] theorem Literal.term_ne_node {l : Literal} {name : String}
    {parts : List Sexp} (h : name ∉ literalWords) :
    l.term ≠ .node name parts := by
  obtain ⟨word, hword, parts', heq⟩ := l.exists_word
  rw [heq]
  exact fun hnode => h ((Sexp.node.inj hnode).1 ▸ hword)

@[simp] theorem Literal.node_ne_term {l : Literal} {name : String}
    {parts : List Sexp} (h : name ∉ literalWords) :
    .node name parts ≠ l.term :=
  (term_ne_node h).symm

namespace Expression

variable {e e' : Expression}

/-- **What an expression is** can be told from its term. -/
theorem idxOf_word (e : Expression) :
    expressionWords.idxOf e.term.expressionWord = e.ctorIdx := by
  cases e with
  | literal l =>
    show expressionWords.idxOf l.term.expressionWord = _
    unfold Literal.term
    split <;> rfl
  | classDef c => cases c; rfl
  | _ => rfl

theorem ctorIdx_eq (h : e.term = e'.term) : e.ctorIdx = e'.ctorIdx := by
  rw [← idxOf_word, ← idxOf_word, h]

theorem word_mem (e : Expression) :
    e.term.expressionWord ∈ expressionWords := by
  rw [← List.idxOf_lt_length_iff, idxOf_word]
  cases e <;> simp [Expression.ctorIdx, expressionWords]

theorem term_ne_node {name : String} {parts : List Sexp}
    (h : name ∉ literalWords ++ expressionWords) :
    e.term ≠ .node name parts := by
  intro heq
  have hmem := e.word_mem
  rw [heq, Sexp.expressionWord] at hmem
  rw [List.mem_append, not_or] at h
  rw [if_neg h.1] at hmem
  split at hmem
  · rename_i hassign
    refine h.2 ?_
    rw [hassign.1]
    decide
  · exact h.2 hmem

theorem term_ne_atom {text : String} : e.term ≠ .atom text := by
  intro heq
  have hmem := e.word_mem
  rw [heq, Sexp.expressionWord] at hmem
  exact absurd hmem (by decide)

end Expression

/-! ## Expressions -/

theorem BinaryOperator.eq_of_atom {o o' : BinaryOperator}
    (h : Sexp.atom (quote o.spelling) = .atom (quote o'.spelling)) :
    o = o' := by
  have hspelling := quote_injective (Sexp.atom.inj h)
  cases o <;> cases o' <;> first | rfl | exact absurd hspelling (by decide)

theorem UnaryOperator.eq_of_atom {o o' : UnaryOperator}
    (h : Sexp.atom (quote o.spelling) = .atom (quote o'.spelling)) :
    o = o' := by
  have hspelling := quote_injective (Sexp.atom.inj h)
  cases o <;> cases o' <;> first | rfl | exact absurd hspelling (by decide)

theorem UpdateOperator.eq_of_atom {o o' : UpdateOperator}
    (h : Sexp.atom (quote o.spelling) = .atom (quote o'.spelling)) :
    o = o' := by
  have hspelling := quote_injective (Sexp.atom.inj h)
  cases o <;> cases o' <;> first | rfl | exact absurd hspelling (by decide)

theorem CompoundOperator.eq_of_atom {o o' : CompoundOperator}
    (h : Sexp.atom (quote o.spelling) = .atom (quote o'.spelling)) :
    o = o' := by
  have hspelling := quote_injective (Sexp.atom.inj h)
  cases o <;> cases o' <;> first | rfl | exact absurd hspelling (by decide)

/-- A mark that may be missing tells whether it is. -/
theorem eq_of_flagTerm {isSet isSet' : Bool} {name : String}
    (h : flagTerm isSet name = flagTerm isSet' name) : isSet = isSet' := by
  cases isSet <;> cases isSet' <;> first | rfl | exact nomatch h

theorem PropertyKey.told (key : PropertyKey) {key' : PropertyKey}
    (h : key.Fits) (ih : key.part.Told) (h' : key'.Fits)
    (hpart' : key'.part.Readable) (ht : key.term = key'.term) :
    key.move nowhere = key'.move nowhere := by
  cases key with
  | identifier id =>
    cases key' with
    | identifier id' =>
      exact congrArg PropertyKey.identifier (Identifier.eq_of_term ht)
    | string l' | number l' =>
      simp [term, Identifier.term, literalWords] at ht
  | string l =>
    cases key' with
    | identifier id' => simp [term, Identifier.term, literalWords] at ht
    | string l' =>
      exact congrArg PropertyKey.string (ih l' hpart'.literal ht)
    | number l' =>
      have h : l.kind = .string := h
      have h' : l'.kind = .number := h'
      simp [term, Literal.term, h, h'] at ht
  | number l =>
    cases key' with
    | identifier id' => simp [term, Identifier.term, literalWords] at ht
    | string l' =>
      have h : l.kind = .number := h
      have h' : l'.kind = .string := h'
      simp [term, Literal.term, h, h'] at ht
    | number l' =>
      exact congrArg PropertyKey.number (ih l' hpart'.literal ht)

theorem ArrowBody.told (b : ArrowBody) {b' : ArrowBody} (ih : b.part.Told)
    (hpart' : b'.part.Readable) (ht : b.term = b'.term) :
    b.shown = b'.shown := by
  have hblock {e : Expression} {b : Block} : e.term ≠ b.term := by
    cases b
    exact Expression.term_ne_node (by decide)
  cases b with
  | expression e =>
    cases b' with
    | expression e' => exact congrArg ArrowBody.expression (ih _ hpart' ht)
    | block b' => exact absurd ht hblock
  | block b =>
    cases b' with
    | expression e' => exact absurd ht.symm hblock
    | block b' => exact congrArg ArrowBody.block (ih _ hpart' ht)

theorem ObjectMember.told (m : ObjectMember) {m' : ObjectMember}
    (h : m.Seated fun _ _ => True) (ih : ∀ n ∈ m.parts, n.Told)
    (h' : m'.Seated fun _ _ => True)
    (hparts' : ∀ n ∈ m'.parts, n.Readable) (ht : m.term = m'.term) :
    m.shown = m'.shown := by
  cases m with
  | pair key value span =>
    cases m' with
    | pair key' value' span' =>
      simp only [parts, List.forall_mem_cons] at ih hparts'
      simp only [term, Sexp.node.injEq, List.cons.injEq, true_and,
        and_true] at ht
      rw [shown, shown, key.told h.1 ih.1 h'.1 hparts'.1 ht.1,
        ih.2.1 _ hparts'.2.1 ht.2]
    | method m' => cases m'; simp [term, Method.term] at ht
    | error e' => simp [term, ErrorNode.term] at ht
  | method m =>
    cases m' with
    | method m' =>
      exact congrArg ObjectMember.method
        (ih _ List.mem_cons_self _ (hparts' _ List.mem_cons_self) ht)
    | pair => cases m; simp [term, Method.term] at ht
    | error e' => cases m; simp [term, Method.term, ErrorNode.term] at ht
  | error e =>
    cases m' with
    | error e' => exact congrArg ObjectMember.error (ErrorNode.eq_of_term ht)
    | pair => simp [term, ErrorNode.term] at ht
    | method m' => cases m'; simp [term, Method.term, ErrorNode.term] at ht

/-- **An expression** is told by its term if what is right below it is. -/
theorem Expression.told (e : Expression) (h : e.Seated fun _ _ => True)
    (ih : ∀ n ∈ e.children, n.Told) : (Node.expression e).Told := by
  intro e' hreadable' ht
  have hsame := ctorIdx_eq ht
  -- The two are of one kind, since their terms are.
  cases e <;> cases e' <;>
    simp only [Expression.ctorIdx, reduceCtorEq, Nat.reduceEqDiff] at hsame
  all_goals
    have h' := hreadable'.seated
    have hbelow' := hreadable'.below
    simp only [Node.children, children, List.forall_mem_cons,
      List.forall_mem_append, List.forall_mem_map, List.forall_mem_flatMap,
      List.not_mem_nil, false_implies, implies_true, and_true] at ih hbelow'
  case identifier.identifier id id' =>
    exact congrArg Expression.identifier (Identifier.eq_of_term ht)
  case literal.literal l l' =>
    exact congrArg Expression.literal (ih _ hbelow'.literal ht)
  case classDef.classDef c c' =>
    exact congrArg Expression.classDef (ih _ hbelow' ht)
  case error.error node node' =>
    exact congrArg Expression.error (ErrorNode.eq_of_term ht)
  case receiver.receiver | super.super => rfl
  case arrow.arrow isAsync params body span isAsync' params' body' span' =>
    obtain ⟨hflag, hrest⟩ := List.append_inj' (Sexp.node.inj ht).2 rfl
    simp only [List.cons.injEq, and_true] at hrest
    rw [shown, shown, eq_of_flagTerm hflag, params_move_eq hrest.1,
      body.told ih.2 hbelow'.2 hrest.2]
  all_goals
    simp only [term, Sexp.node.injEq, List.cons.injEq, true_and,
      and_true] at ht
  case object.object members span members' span' =>
    rw [memberTerms_eq, memberTerms_eq] at ht
    have hmembers : members.map ObjectMember.shown
        = members'.map ObjectMember.shown :=
      map_shown_eq (R := fun m' => (m'.Seated fun _ _ => True)
          ∧ ∀ n ∈ m'.parts, n.Readable)
        (fun m hm m' hm' => m.told (h m hm) (ih m hm) hm'.1 hm'.2)
        (fun m' hm' => ⟨h' m' hm', hbelow' m' hm'⟩) ht
    rw [shown, shown, shownMembers_eq, shownMembers_eq, hmembers]
  case array.array elements span elements' span' =>
    rw [expressionTerms_eq, expressionTerms_eq] at ht
    rw [shown, shown, shownExpressions_eq, shownExpressions_eq,
      map_shown_eq ih hbelow' ht]
  case function.function f f' =>
    exact congrArg Expression.function (ih _ hbelow' ht)
  case generator.generator f f' =>
    exact congrArg Expression.generator (ih _ hbelow' ht)
  case call.call callee arguments span callee' arguments' span' =>
    rw [expressionTerms_eq, expressionTerms_eq] at ht
    rw [shown, shown, shownExpressions_eq, shownExpressions_eq,
      ih.1 _ hbelow'.1 ht.1, map_shown_eq ih.2 hbelow'.2 ht.2]
  case newObject.newObject | await.await | parenthesized.parenthesized =>
    rw [shown, shown, ih _ hbelow' ht]
  case member.member owner property span owner' property' span' =>
    rw [shown, shown, ih.1 _ hbelow'.1 ht.1, Identifier.eq_of_atom ht.2]
  case subscript.subscript | assignment.assignment | sequence.sequence =>
    rw [shown, shown, ih.1 _ hbelow'.1 ht.1, ih.2 _ hbelow'.2 ht.2]
  case conditional.conditional =>
    rw [shown, shown, ih.1 _ hbelow'.1 ht.1, ih.2.1 _ hbelow'.2.1 ht.2.1,
      ih.2.2 _ hbelow'.2.2 ht.2.2]
  case compoundAssignment.compoundAssignment =>
    rw [shown, shown, CompoundOperator.eq_of_atom ht.1,
      ih.1 _ hbelow'.1 ht.2.1, ih.2 _ hbelow'.2 ht.2.2]
  case binary.binary =>
    rw [shown, shown, BinaryOperator.eq_of_atom ht.1,
      ih.1 _ hbelow'.1 ht.2.1, ih.2 _ hbelow'.2 ht.2.2]
  case unary.unary =>
    rw [shown, shown, UnaryOperator.eq_of_atom ht.1, ih _ hbelow' ht.2]
  case update.update operator leads argument span operator' leads' argument'
      span' =>
    have hleads : leads = leads' := by
      have hplace := ht.2.1
      cases leads <;> cases leads' <;> first
        | rfl
        | exact absurd (Sexp.atom.inj hplace) (by decide)
    rw [shown, shown, UpdateOperator.eq_of_atom ht.1, hleads,
      ih _ hbelow' ht.2.2]

/-! ## Functions and classes -/

/-- **The front of a function** is told, as far as it is shown: where the
same atom is a name here and the mark there, the name is the mark. -/
theorem headingShown_eq {id? id?' : Option Identifier}
    {isAsync isAsync' : Bool}
    (h : flagTerm isAsync "async" ++ id?.toList.map Identifier.atom
      = flagTerm isAsync' "async" ++ id?'.toList.map Identifier.atom) :
    headingShown id? isAsync = headingShown id?' isAsync' := by
  cases id? <;> cases id?' <;> cases isAsync <;> cases isAsync' <;>
    simp_all [flagTerm, headingShown, Identifier.atom, Identifier.move,
      Span.move, nowhere]

theorem Function.told (f : Function)
    (ih : ∀ n ∈ (Node.function f).children, n.Told) :
    (Node.function f).Told := by
  intro f' hreadable' ht
  have hbelow' := hreadable'.below
  obtain ⟨id?, params, body, isAsync, span⟩ := f
  obtain ⟨id?', params', body', isAsync', span'⟩ := f'
  simp only [Node.children, List.forall_mem_append,
    List.forall_mem_singleton] at ih hbelow'
  obtain ⟨hheading, hrest⟩ := List.append_inj' ht rfl
  simp only [List.cons.injEq, and_true] at hrest
  rw [shown, shown, headingShown_eq hheading, params_move_eq hrest.1,
    ih.2 _ hbelow'.2 hrest.2]

/-- The marks in front of a method tell what they are. -/
theorem methodMarks_eq {isStatic isStatic' isAsync isAsync' : Bool}
    {kind kind' : MethodKind}
    (h : flagTerm isStatic "static" ++ flagTerm isAsync "async" ++ kind.terms
      = flagTerm isStatic' "static" ++ flagTerm isAsync' "async"
        ++ kind'.terms) :
    isStatic = isStatic' ∧ isAsync = isAsync' ∧ kind = kind' := by
  cases isStatic <;> cases isStatic' <;> cases isAsync <;>
    cases isAsync' <;> cases kind <;> cases kind' <;>
    simp_all [flagTerm, MethodKind.terms]

theorem Method.told (m : Method)
    (ih : ∀ n ∈ (Node.method m).children, n.Told) :
    (Node.method m).Told := by
  intro m' hreadable' ht
  have hbelow' := hreadable'.below
  obtain ⟨isStatic, isAsync, kind, key, params, body, span⟩ := m
  obtain ⟨isStatic', isAsync', kind', key', params', body', span'⟩ := m'
  simp only [Node.children, List.forall_mem_cons,
    List.forall_mem_append] at ih hbelow'
  obtain ⟨hmarks, hrest⟩ := List.append_inj' (Sexp.node.inj ht).2 rfl
  simp only [List.cons.injEq, and_true] at hrest
  obtain ⟨rfl, rfl, rfl⟩ := methodMarks_eq hmarks
  rw [shown, shown, Identifier.eq_of_atom hrest.1, params_move_eq hrest.2.1,
    ih.2.2.1 _ hbelow'.2.2.1 hrest.2.2]

/-- **Two kinds of terms side by side**: where the first kind ends is
known from the terms. -/
theorem append_eq_of_kinds {P : Sexp → Prop} {as as' bs bs' : List Sexp}
    (has : ∀ t ∈ as, P t) (hbs : ∀ t ∈ bs, ¬P t) (has' : ∀ t ∈ as', P t)
    (hbs' : ∀ t ∈ bs', ¬P t) (h : as ++ bs = as' ++ bs') :
    as = as' ∧ bs = bs' := by
  rcases List.append_eq_append_iff.1 h with ⟨x, rfl, rfl⟩ | ⟨x, rfl, rfl⟩
  all_goals
    cases x with
    | nil => simp
    | cons t x => simp_all

theorem Method.exists_parts (m : Method) :
    ∃ parts, m.term = .node "method" parts := by
  cases m
  exact ⟨_, rfl⟩

theorem parentTerms_named (parent? : Option Expression) :
    ∀ t ∈ parentTerms parent?, ∃ parts, t = .node "extends" parts := by
  cases parent? with
  | none => exact nofun
  | some e => exact List.forall_mem_singleton.2 ⟨_, rfl⟩

theorem methodTerms_named (methods : List Method) :
    ∀ t ∈ methodTerms methods, ∃ parts, t = .node "method" parts := by
  rw [methodTerms_eq]
  exact List.forall_mem_map.2 fun m _ => m.exists_parts

theorem Class.told (c : Class)
    (ih : ∀ n ∈ (Node.classDef c).children, n.Told) :
    (Node.classDef c).Told := by
  intro c' hreadable' ht
  have hbelow' := hreadable'.below
  obtain ⟨id?, parent?, methods, span⟩ := c
  obtain ⟨id?', parent?', methods', span'⟩ := c'
  simp only [Node.children, List.forall_mem_append, List.forall_mem_map,
    Option.mem_toList] at ih hbelow'
  have hid (id? : Option Identifier) :
      ∀ t ∈ id?.toList.map Identifier.atom, ∃ text, t = .atom text :=
    List.forall_mem_map.2 fun id _ => ⟨_, rfl⟩
  have hnodes (parent? : Option Expression) (methods : List Method) :
      ∀ t ∈ parentTerms parent? ++ methodTerms methods,
        ¬∃ text, t = .atom text := by
    rintro t hmem ⟨text, rfl⟩
    rcases List.mem_append.1 hmem with hmem | hmem
    · obtain ⟨parts, heq⟩ := parentTerms_named parent? _ hmem
      cases heq
    · obtain ⟨parts, heq⟩ := methodTerms_named methods _ hmem
      cases heq
  have hmethods (methods : List Method) : ∀ t ∈ methodTerms methods,
      ¬∃ parts, t = .node "extends" parts := by
    rintro t hmem ⟨parts', rfl⟩
    obtain ⟨parts, heq⟩ := methodTerms_named methods _ hmem
    exact absurd (Sexp.node.inj heq).1 (by decide)
  have hparts := (Sexp.node.inj ht).2
  rw [List.append_assoc, List.append_assoc] at hparts
  obtain ⟨hids, hrest⟩ := append_eq_of_kinds (hid _) (hnodes _ _) (hid _)
    (hnodes _ _) hparts
  obtain ⟨hparents, hterms⟩ := append_eq_of_kinds (parentTerms_named _)
    (hmethods _) (parentTerms_named _) (hmethods _) hrest
  have hparent : shownExpression? parent? = shownExpression? parent?' := by
    cases parent? <;> cases parent?' <;>
      simp only [parentTerms, reduceCtorEq, List.cons.injEq,
        Sexp.node.injEq, true_and, and_true] at hparents
    · rfl
    · exact congrArg some (ih.1.2 _ rfl _ (hbelow'.1.2 _ rfl) hparents)
  rw [methodTerms_eq, methodTerms_eq] at hterms
  rw [shown, shown, id?_move_eq hids, hparent, shownMethods_eq,
    shownMethods_eq, map_shown_eq ih.2 hbelow'.2 hterms]

theorem Block.told (b : Block)
    (ih : ∀ n ∈ (Node.block b).children, n.Told) :
    (Node.block b).Told := by
  intro b' hreadable' ht
  have hbelow' := hreadable'.below
  obtain ⟨body, span⟩ := b
  obtain ⟨body', span'⟩ := b'
  simp only [Node.children, List.forall_mem_map] at ih hbelow'
  have hterms := (Sexp.node.inj ht).2
  rw [statementTerms_eq, statementTerms_eq] at hterms
  rw [shown, shown, shownStatements_eq, shownStatements_eq,
    map_shown_eq ih hbelow' hterms]

end ScriptTree
