import ScriptTree.Operator.Table
import ScriptTree.Proofs.Depth.Path
import ScriptTree.Proofs.Tree.Stated

/-!
# The seats of a tree

Where an expression stands in a tree, it stands in one of seven kinds of
**seat**. What is called or accessed has been read before it was known that
it would be, and so has what is assigned to, and the first operand of any
other operator. The operand behind an operator has been read to its end, and
so has what is deleted, which may be refused then. What an export declares
is a function or a class by the word it begins with, and a class may do
without its name there. Any other expression has been read to its end, or
an error node stands in its place.

`Expression.Seated A` says of an expression that what is in its seats is
as `A` has it, and `Statement.Seated A` says it of a statement. Both also
say the little there is to know of the leaves: that the key of a pair is a
literal of the kind it is said to be, that the name of a module is a
string, and that an import that has names has one.

What was read to its end was read as an expression that has no operator
looser than some level, and there are not many levels a grammar asks for
(`OperatorTable.Asks`).
-/

namespace ScriptTree

/-- **The levels a grammar asks for**, with a given table: those of the
productions, and those of the operands of the operators. -/
inductive OperatorTable.Asks (table : OperatorTable) : Precedence → Prop where
  /-- An expression, the comma operator included. -/
  | lowest : Asks table .lowest
  /-- An expression without a comma of its own. -/
  | assignment : Asks table .assignment
  /-- What a class extends. -/
  | parent : Asks table .call
  /-- What is behind an operator in front of it. -/
  | before {kind : TokenKind} {info : OperatorInfo}
      (found : table.beforeOperand? kind = some info)
      (fixity_eq : info.fixity = .before) :
      Asks table info.precedence.tighter
  /-- What is behind an operator between two operands. -/
  | between {kind : TokenKind} {info : OperatorInfo}
      (found : table.afterOperand? kind = some info)
      (fixity_ne : info.fixity ≠ .after) : Asks table info.rightOperand

/-- **The seats there are.** -/
inductive Seat where
  /-- The seat of what is called or accessed. -/
  | accessed
  /-- The seat of what is assigned to. -/
  | assigned
  /-- The seat of the first operand of another operator. -/
  | operand
  /-- The seat of what is deleted. -/
  | deleted
  /-- The seat behind another operator that stands in front. -/
  | behind
  /-- The seat of what an export declares. -/
  | exported
  /-- Any other seat. -/
  | plain
deriving Repr, DecidableEq

/-- Whether a level is entered for what takes a seat: what a node was made
around is on the level of the node. -/
def Seat.enters : Seat → Bool
  | accessed | assigned | operand | exported => false
  | deleted | behind | plain => true

/-- The seat behind an operator that stands in front. -/
def UnaryOperator.seat : UnaryOperator → Seat
  | delete => .deleted
  | _ => .behind

section Seats

variable (A : Seat → Expression → Prop)

/-! ## Expressions -/

/-- **The key of a pair** is a literal of its kind. -/
def PropertyKey.Fits : PropertyKey → Prop
  | identifier _ => True
  | string l => l.kind = .string
  | number l => l.kind = .number

/-- What is in the seat of a member of an object. -/
def ObjectMember.Seated : ObjectMember → Prop
  | pair key value _ => key.Fits ∧ A .plain value
  | method _ | error _ => True

/-- What is in the seat of the body of an arrow function. -/
def ArrowBody.Seated : ArrowBody → Prop
  | expression e => A .plain e
  | block _ => True

/-- What is in the seat of a class. -/
def Class.Seated (c : Class) : Prop := ∀ e ∈ c.parent?, A .plain e

/-- **What is in the seats of an expression.** -/
def Expression.Seated : Expression → Prop
  | object members _ => ∀ m ∈ members, m.Seated A
  | array elements _ => ∀ e ∈ elements, A .plain e
  | arrow _ _ body _ => body.Seated A
  | classDef c => c.Seated A
  | call callee arguments _ =>
    A .accessed callee ∧ ∀ e ∈ arguments, A .plain e
  | unary operator e _ => A operator.seat e
  | newObject e _ | await e _ | update _ true e _ => A .behind e
  | update _ false e _ => A .operand e
  | parenthesized e _ => A .plain e
  | member owner .. => A .accessed owner
  | subscript owner index _ => A .accessed owner ∧ A .plain index
  | assignment target value _ | compoundAssignment _ target value _ =>
    A .assigned target ∧ A .plain value
  | conditional test consequent alternate _ =>
    A .operand test ∧ A .plain consequent ∧ A .plain alternate
  | binary _ left right _ | sequence left right _ =>
    A .operand left ∧ A .plain right
  | identifier _ | literal _ | receiver _ | super _ | function _
  | generator _ | error _ => True

/-! ## Statements -/

/-- What is in the seat of a binding. -/
def Declarator.Seated : Declarator → Prop
  | binding _ init? _ => ∀ e ∈ init?, A .plain e
  | error _ => True

/-- What is in the seats of a declaration. -/
def VariableDeclaration.Seated (d : VariableDeclaration) : Prop :=
  ∀ b ∈ d.declarators, b.Seated A

/-- What is in the seats of what a counting loop does first. -/
def ForInit.Seated : ForInit → Prop
  | declaration d => d.Seated A
  | expression e => A .plain e

/-- **An import with names has one.** -/
def ImportClause.Names (c : ImportClause) : Prop :=
  c.default?.isSome = true ∨ c.whole?.isSome = true ∨ c.named?.isSome = true

/-- What is in the seats of an export. What is declared here is a function
or a class; the default of a module may be a class. -/
def Export.Seated : Export → Prop
  | all source => source.kind = .string
  | named _ source? => ∀ source ∈ source?, source.kind = .string
  | declaration e => A .exported e
  | bindings d => d.Seated A
  | default e => A .plain e ∨ A .exported e ∧ ∃ c, e = .classDef c

/-- **What is in the seats of a statement.** -/
def Statement.Seated : Statement → Prop
  | expression e _ => A .plain e
  | declaration d => d.Seated A
  | conditional test .. | whileLoop test .. | doWhile _ test _ =>
    A .plain test
  | switch discriminant cases _ =>
    A .plain discriminant ∧ ∀ c ∈ cases, ∀ e ∈ c.test?, A .plain e
  | forLoop init? test? update? _ _ =>
    (∀ i ∈ init?, i.Seated A) ∧ (∀ e ∈ test?, A .plain e)
      ∧ ∀ e ∈ update?, A .plain e
  | forIn _ left right _ _ | forOf _ left right _ _ =>
    A .plain left ∧ A .plain right
  | returnValue argument? _ | yieldValue argument? _ =>
    ∀ e ∈ argument?, A .plain e
  | throwValue argument _ => A .plain argument
  | importNames clause? source _ =>
    (∀ c ∈ clause?, c.Names) ∧ source.kind = .string
  | exportNames e _ => e.Seated A
  | tryBlock .. | breakLoop _ | continueLoop _ | empty _ | block _
  | error _ => True

/-- **What is in the seats of a node.** -/
def Node.Seated : Node → Prop
  | expression e => e.Seated A
  | statement x => x.Seated A
  | declaration d => d.Seated A
  | classDef c => c.Seated A
  | _ => True

end Seats

/-- **A declaration has plain seats alone.** -/
theorem VariableDeclaration.Seated.mono {A B : Seat → Expression → Prop}
    {d : VariableDeclaration} (h : d.Seated A)
    (hplain : ∀ e, A .plain e → B .plain e) : d.Seated B := by
  intro b hb
  cases b with
  | binding id init? span => exact fun e he => hplain e (h _ hb e he)
  | error => trivial

/-! ## More for the same seats -/

section Mono

variable {A B : Seat → Expression → Prop}
  (hAB : ∀ seat e, A seat e → B seat e)

include hAB

theorem Expression.Seated.mono {x : Expression} (h : x.Seated A) :
    x.Seated B := by
  cases x with
  | object members span =>
    intro m hm
    have := h m hm
    cases m with
    | pair key value span => exact ⟨this.1, hAB _ _ this.2⟩
    | method | error => trivial
  | array | classDef => exact fun e he => hAB _ e (h e he)
  | arrow isAsync params body span =>
    cases body with
    | expression e => exact hAB _ _ h
    | block => trivial
  | update operator leads argument span => cases leads <;> exact hAB _ _ h
  | newObject | await | unary | parenthesized | member => exact hAB _ _ h
  | call => exact ⟨hAB _ _ h.1, fun e he => hAB _ e (h.2 e he)⟩
  | conditional =>
    exact ⟨hAB _ _ h.1, hAB _ _ h.2.1, hAB _ _ h.2.2⟩
  | subscript | assignment | compoundAssignment | binary | sequence =>
    exact ⟨hAB _ _ h.1, hAB _ _ h.2⟩
  | identifier | literal | receiver | super | function | generator
  | error => trivial

theorem Export.Seated.mono {x : Export} (h : x.Seated A) :
    x.Seated B := by
  cases x with
  | all | named => exact h
  | declaration => exact hAB _ _ h
  | bindings => exact VariableDeclaration.Seated.mono h fun e => hAB _ e
  | default => exact h.imp (hAB _ _) (And.imp_left (hAB _ _))

theorem Statement.Seated.mono {x : Statement} (h : x.Seated A) :
    x.Seated B := by
  cases x with
  | expression | conditional | whileLoop | doWhile | throwValue =>
    exact hAB _ _ h
  | declaration =>
    exact VariableDeclaration.Seated.mono h fun e => hAB _ e
  | switch =>
    exact ⟨hAB _ _ h.1, fun c hc e he => hAB _ e (h.2 c hc e he)⟩
  | forLoop =>
    refine ⟨fun i hi => ?_, fun e he => hAB _ e (h.2.1 e he),
      fun e he => hAB _ e (h.2.2 e he)⟩
    have hi := h.1 i hi
    cases i with
    | declaration =>
      exact VariableDeclaration.Seated.mono hi fun e => hAB _ e
    | expression => exact hAB _ _ hi
  | forIn | forOf => exact ⟨hAB _ _ h.1, hAB _ _ h.2⟩
  | returnValue | yieldValue => exact fun e he => hAB _ e (h e he)
  | importNames => exact h
  | exportNames => exact Export.Seated.mono hAB h
  | tryBlock | breakLoop | continueLoop | empty | block | error => trivial

/-- **Seats are taken by what takes them**, whatever else is known of it. -/
theorem Node.Seated.mono {n : Node} (h : n.Seated A) : n.Seated B := by
  cases n with
  | expression => exact Expression.Seated.mono hAB h
  | statement => exact Statement.Seated.mono hAB h
  | declaration => exact VariableDeclaration.Seated.mono h fun e => hAB _ e
  | classDef => exact fun e he => hAB _ e (h e he)
  | _ => trivial
end Mono

/-! ## Who is in which seat -/

namespace Node

variable {A B : Seat → Expression → Prop} {n : Node} {e : Expression}

/-- **What is called or accessed** by a node, if it calls or accesses
anything. -/
def accessed? : Node → Option Expression
  | expression (.call callee _ _) => some callee
  | expression (.member owner _ _) => some owner
  | expression (.subscript owner _ _) => some owner
  | _ => none

/-- **What is exported** by a node, if it exports a function, a class or
the value of an expression. -/
def exported? : Node → Option Expression
  | statement (.exportNames (.declaration e) _) => some e
  | statement (.exportNames (.default e) _) => some e
  | _ => none

/-- **What a node was made around** has a seat, and that of what is called,
accessed or exported only where it is. -/
theorem Seated.core (h : n.Seated A) (he : .expression e ∈ n.core) :
    ∃ seat, A seat e ∧ (seat = .accessed → n.accessed? = some e)
      ∧ (seat = .exported → n.exported? = some e) := by
  unfold Node.core at he
  split at he
  case h_12 => exact absurd he List.not_mem_nil
  all_goals obtain rfl := expression.inj (List.mem_singleton.1 he)
  case h_1 | h_3 => exact ⟨.accessed, h.1, fun _ => rfl, by simp⟩
  case h_2 => exact ⟨.accessed, h, fun _ => rfl, by simp⟩
  case h_4 | h_5 => exact ⟨.assigned, h.1, by simp, by simp⟩
  case h_6 | h_7 | h_9 => exact ⟨.operand, h.1, by simp, by simp⟩
  case h_8 => exact ⟨.operand, h, by simp, by simp⟩
  case h_10 => exact ⟨.exported, h, by simp, fun _ => rfl⟩
  case h_11 =>
    rcases h with h | h
    · exact ⟨.plain, h, by simp, by simp⟩
    · exact ⟨.exported, h.1, by simp, fun _ => rfl⟩

/-- The expression of a binding is its first value. -/
theorem plain_of_mem_declarator {d : Declarator} (h : d.Seated A)
    (he : .expression e ∈ d.parts) : A .plain e := by
  cases d with
  | binding id init? span => exact h e (by simpa [Declarator.parts] using he)
  | error => simp [Declarator.parts] at he

/-- The expression of a member is the value of a pair. -/
theorem plain_of_mem_objectMember {m : ObjectMember} (h : m.Seated A)
    (he : .expression e ∈ m.parts) : A .plain e := by
  cases m with
  | pair key value span =>
    have hvalue : e = value := by
      cases key <;> simpa [ObjectMember.parts, PropertyKey.part] using he
    exact hvalue ▸ h.2
  | method | error => simp [ObjectMember.parts] at he

/-- The expression in the first part of a header. -/
theorem plain_of_part_forInit {i : ForInit} (h : i.Seated A)
    (he : i.part = .expression e) : A .plain e := by
  cases i with
  | declaration => cases he
  | expression =>
    cases he
    exact h

/-- A node right below that the node was not made around. -/
theorem mem_children_of_mem_others {c : Node} (h : c ∈ n.others) :
    c ∈ n.children := List.mem_of_mem_drop h

/-- The expression of an export that declares nothing is a default. -/
theorem plain_of_mem_export {x : Export} {span : Span} (h : x.Seated A)
    (he : .expression e ∈ (statement (.exportNames x span)).others) :
    A .plain e := by
  have hchild := mem_children_of_mem_others he
  cases x with
  | default e' =>
    by_cases hclass : ∃ c, e' = .classDef c
    · obtain ⟨c, rfl⟩ := hclass
      exact absurd he List.not_mem_nil
    · obtain rfl : e = e' := expression.inj (List.mem_singleton.1 hchild)
      exact h.resolve_right fun h => hclass h.2
  | declaration => exact absurd he List.not_mem_nil
  | _ =>
    simp [children, Statement.children, Export.parts,
      ExportSpecifier.parts] at hchild

theorem plain_of_mem_statement {x : Statement} (h : x.Seated A)
    (he : .expression e ∈ (statement x).others) : A .plain e := by
  have hchild : .expression e ∈ x.children := mem_children_of_mem_others he
  cases x with
  | switch discriminant cases span =>
    simp only [Statement.children, SwitchCase.parts, List.mem_cons,
      expression.injEq, List.mem_flatMap, List.mem_append, List.mem_map,
      Option.mem_toList, exists_eq_right, reduceCtorEq, and_false,
      exists_false, or_false] at hchild
    rcases hchild with rfl | ⟨c, hc, he⟩
    · exact h.1
    · exact h.2 c hc e he
  | forLoop init? test? update? body span =>
    simp only [Statement.children, List.mem_append, List.mem_map,
      Option.mem_toList, expression.injEq, exists_eq_right,
      List.mem_singleton, reduceCtorEq, or_false] at hchild
    rcases hchild with (⟨i, hi, he⟩ | he) | he
    · exact plain_of_part_forInit (h.1 i hi) he
    · exact h.2.1 e he
    · exact h.2.2 e he
  | exportNames x span => exact plain_of_mem_export h he
  | tryBlock body handler? finalizer? span =>
    cases handler? <;> simp [Statement.children, CatchClause.parts] at hchild
  | importNames clause? source span =>
    cases clause? <;> simp [Statement.children, ImportClause.parts,
      ImportSpecifier.parts] at hchild
  | _ => grind [Statement.children, Statement.Seated]

/-- The other expressions of an expression have a seat that is entered. -/
theorem enters_of_mem_expression {x : Expression} (h : x.Seated A)
    (he : .expression e ∈ (expression x).others) :
    ∃ seat : Seat, seat.enters = true ∧ A seat e := by
  have hchild : .expression e ∈ x.children := mem_children_of_mem_others he
  cases x with
  | object members span =>
    obtain ⟨m, hm, he⟩ := List.mem_flatMap.1 hchild
    exact ⟨.plain, rfl, plain_of_mem_objectMember (h m hm) he⟩
  | arrow isAsync params body span =>
    cases body with
    | expression body =>
      have hbody : e = body := by
        simpa [Expression.children, ArrowBody.part] using hchild
      exact ⟨.plain, rfl, hbody ▸ h⟩
    | block => simp [Expression.children, ArrowBody.part] at hchild
  | unary operator argument span =>
    obtain rfl := expression.inj (List.mem_singleton.1 hchild)
    exact ⟨operator.seat, by cases operator <;> rfl, h⟩
  | newObject | await =>
    obtain rfl := expression.inj (List.mem_singleton.1 hchild)
    exact ⟨.behind, rfl, h⟩
  | update operator leads argument span =>
    cases leads with
    | false => exact absurd he List.not_mem_nil
    | true =>
      obtain rfl := expression.inj (List.mem_singleton.1 hchild)
      exact ⟨.behind, rfl, h⟩
  | _ =>
    refine ⟨.plain, rfl, ?_⟩
    simp only [Node.others, Node.core, children, Expression.children,
      List.length_nil, List.length_singleton, List.drop_zero,
      List.drop_succ_cons] at he
    grind [Expression.Seated]

/-- **The other expressions right below a node** have seats that are
entered. -/
theorem Seated.others (h : n.Seated A) (he : .expression e ∈ n.others) :
    ∃ seat : Seat, seat.enters = true ∧ A seat e := by
  cases n with
  | statement x => exact ⟨.plain, rfl, plain_of_mem_statement h he⟩
  | expression x => exact enters_of_mem_expression h he
  | declaration d =>
    obtain ⟨b, hb, he⟩ := List.mem_flatMap.1 he
    exact ⟨.plain, rfl, plain_of_mem_declarator (h b hb) he⟩
  | classDef c =>
    have hchild := mem_children_of_mem_others he
    exact ⟨.plain, rfl, h e (by simpa [children] using hchild)⟩
  | _ =>
    have hchild := mem_children_of_mem_others he
    simp [children] at hchild

/-- **An expression right below a node** is in one of its seats. -/
theorem Seated.seat (h : n.Seated A) (he : .expression e ∈ n.children) :
    ∃ seat, A seat e ∧ (seat = .accessed → n.accessed? = some e)
      ∧ (seat = .exported → n.exported? = some e) := by
  rw [children_eq] at he
  refine (List.mem_append.1 he).elim h.core fun he => ?_
  obtain ⟨seat, henters, hseat⟩ := h.others he
  refine ⟨seat, hseat, ?_, ?_⟩ <;>
  · rintro rfl
    cases henters

/-- What is true of all in the seats is true of the expressions right below
a node. -/
theorem Seated.forall_child {P : Expression → Prop} (h : n.Seated A)
    (hA : ∀ seat e, A seat e → P e) (he : .expression e ∈ n.children) :
    P e := by
  obtain ⟨seat, hseat, -⟩ := h.seat he
  exact hA seat e hseat

end Node

end ScriptTree
