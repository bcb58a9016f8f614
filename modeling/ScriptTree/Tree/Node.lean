import ScriptTree.Tree.Basic

/-!
# Walking a tree

A tree is made of many types; a walk sees one. A `Node` is any of the
parts of a tree that a walk stops at, and `Node.children` lists the nodes
right below one, in the order of the text. Parts that are only brackets
around others – a clause of a switch, a pair of an object, an import list
– are no nodes of their own: their nodes belong to the node around them.

`Node.walk` visits a node and, where it is asked to go on, all below it,
each before its children. What a tool does at a node is not the walk's
business, so there is only one walk.
-/

namespace ScriptTree

/-- **A part of a tree that a walk stops at.** -/
inductive Node where
  /-- A script. -/
  | program (p : Program)
  /-- A statement. -/
  | statement (s : Statement)
  /-- Statements in braces. -/
  | block (b : Block)
  /-- A declaration of variables. -/
  | declaration (d : VariableDeclaration)
  /-- An expression. -/
  | expression (e : Expression)
  /-- A function or generator. -/
  | function (f : Function)
  /-- A class. -/
  | classDef (c : Class)
  /-- A method. -/
  | method (m : Method)
  /-- A name. -/
  | identifier (id : Identifier)
  /-- A literal. -/
  | literal (l : Literal)
  /-- Text that could not be read. -/
  | error (e : ErrorNode)

/-! ## The nodes right below a part -/

namespace Declarator

/-- The nodes of a binding. -/
def parts : Declarator → List Node
  | binding id init? _ => .identifier id :: init?.toList.map .expression
  | error e => [.error e]

end Declarator

/-- The nodes of a clause of a switch. -/
def SwitchCase.parts (c : SwitchCase) : List Node :=
  c.test?.toList.map .expression ++ c.consequent.map .statement

/-- The node of what a counting loop does first. -/
def ForInit.part : ForInit → Node
  | declaration d => .declaration d
  | expression e => .expression e

/-- The nodes of what is done about an exception. -/
def CatchClause.parts (c : CatchClause) : List Node :=
  c.param?.toList.map .identifier ++ [.block c.body]

/-- The nodes of one name of an import list. -/
def ImportSpecifier.parts (s : ImportSpecifier) : List Node :=
  .identifier s.imported :: s.alias?.toList.map .identifier

/-- The nodes of the names an import binds. -/
def ImportClause.parts (c : ImportClause) : List Node :=
  c.default?.toList.map .identifier ++ c.whole?.toList.map .identifier
    ++ (c.named?.getD []).flatMap ImportSpecifier.parts

/-- The nodes of one name of an export list. -/
def ExportSpecifier.parts (s : ExportSpecifier) : List Node :=
  .identifier s.localName :: s.alias?.toList.map .identifier

/-- The nodes of what a module exports. -/
def Export.parts : Export → List Node
  | all source => [.literal source]
  | named specifiers source? =>
    specifiers.flatMap ExportSpecifier.parts
      ++ source?.toList.map .literal
  | declaration e | default e => [.expression e]
  | bindings d => [.declaration d]

/-- The node of the key of a pair. -/
def PropertyKey.part : PropertyKey → Node
  | identifier id => .identifier id
  | string literal | number literal => .literal literal

/-- The nodes of a member of an object. -/
def ObjectMember.parts : ObjectMember → List Node
  | pair key value _ => [key.part, .expression value]
  | method m => [.method m]
  | error e => [.error e]

/-- The node of the body of an arrow function. -/
def ArrowBody.part : ArrowBody → Node
  | expression e => .expression e
  | block b => .block b

/-- The nodes right below a statement. -/
def Statement.children : Statement → List Node
  | expression e _ => [.expression e]
  | declaration d => [.declaration d]
  | conditional test consequent alternate? _ =>
    .expression test :: .statement consequent
      :: alternate?.toList.map .statement
  | switch discriminant cases _ =>
    .expression discriminant :: cases.flatMap SwitchCase.parts
  | forLoop init? test? update? body _ =>
    init?.toList.map ForInit.part ++ test?.toList.map .expression
      ++ update?.toList.map .expression ++ [.statement body]
  | forIn _ left right body _ | forOf _ left right body _ =>
    [.expression left, .expression right, .statement body]
  | whileLoop test body _ => [.expression test, .statement body]
  | doWhile body test _ => [.block body, .expression test]
  | tryBlock body handler? finalizer? _ =>
    .block body :: ((handler?.map CatchClause.parts).getD []
      ++ finalizer?.toList.map .block)
  | returnValue argument? _ | yieldValue argument? _ =>
    argument?.toList.map .expression
  | throwValue argument _ => [.expression argument]
  | block b => [.block b]
  | importNames clause? source _ =>
    (clause?.map ImportClause.parts).getD [] ++ [.literal source]
  | exportNames e _ => e.parts
  | error e => [.error e]
  | breakLoop _ | continueLoop _ | empty _ => []

/-- The nodes right below an expression. -/
def Expression.children : Expression → List Node
  | identifier id => [.identifier id]
  | literal l => [.literal l]
  | receiver _ | super _ => []
  | object members _ => members.flatMap ObjectMember.parts
  | array elements _ => elements.map .expression
  | function f | generator f => [.function f]
  | arrow _ params body _ => params.map .identifier ++ [body.part]
  | classDef c => [.classDef c]
  | call callee arguments _ =>
    .expression callee :: arguments.map .expression
  | newObject e _ | await e _ | unary _ e _ | update _ _ e _
  | parenthesized e _ => [.expression e]
  | member owner property _ => [.expression owner, .identifier property]
  | subscript owner index _ => [.expression owner, .expression index]
  | assignment target value _ | compoundAssignment _ target value _ =>
    [.expression target, .expression value]
  | conditional test consequent alternate _ =>
    [.expression test, .expression consequent, .expression alternate]
  | binary _ left right _ | sequence left right _ =>
    [.expression left, .expression right]
  | error e => [.error e]

namespace Node

/-- **The nodes right below a node**, in the order of the text. -/
def children : Node → List Node
  | program p => p.body.map .statement
  | statement s => s.children
  | block b => b.body.map .statement
  | declaration d => d.declarators.flatMap Declarator.parts
  | expression e => e.children
  | function f =>
    f.id?.toList.map .identifier ++ f.params.map .identifier
      ++ [.block f.body]
  | classDef c =>
    c.id?.toList.map .identifier ++ c.parent?.toList.map .expression
      ++ c.methods.map .method
  | method m =>
    .identifier m.key :: (m.params.map .identifier ++ [.block m.body])
  | identifier _ | literal _ | error _ => []

/-- Where the node stands. -/
def span : Node → Span
  | program p => p.span
  | statement s => s.span
  | block b => b.span
  | declaration d => d.span
  | expression e => e.span
  | function f => f.span
  | classDef c => c.span
  | method m => m.span
  | identifier id => id.span
  | literal l => l.span
  | error e => e.span

end Node

/-! ## A node outweighs what is below it

The walk ends because every node is larger than the nodes below it. Each
lemma says so for one type of part. -/

theorem Declarator.sizeOf_part_le (d : Declarator) :
    ∀ n ∈ d.parts, sizeOf n ≤ sizeOf d := by
  intro n h
  cases d
  all_goals simp only [parts, List.mem_cons, List.mem_map,
    Option.mem_toList, List.not_mem_nil, or_false] at h
  all_goals grind [binding.sizeOf_spec, error.sizeOf_spec,
    Node.identifier.sizeOf_spec, Node.expression.sizeOf_spec,
    Node.error.sizeOf_spec, Option.some.sizeOf_spec]

theorem SwitchCase.sizeOf_part_le (c : SwitchCase) :
    ∀ n ∈ c.parts, sizeOf n ≤ sizeOf c := by
  intro n h
  cases c
  simp only [parts, List.mem_append, List.mem_map, Option.mem_toList] at h
  grind [→ List.sizeOf_lt_of_mem, mk.sizeOf_spec,
    Node.expression.sizeOf_spec, Node.statement.sizeOf_spec,
    Option.some.sizeOf_spec]

theorem CatchClause.sizeOf_part_le (c : CatchClause) :
    ∀ n ∈ c.parts, sizeOf n ≤ sizeOf c := by
  intro n h
  cases c
  simp only [parts, List.mem_append, List.mem_map, Option.mem_toList,
    List.mem_singleton] at h
  grind [mk.sizeOf_spec, Node.identifier.sizeOf_spec,
    Node.block.sizeOf_spec, Option.some.sizeOf_spec]

theorem ImportSpecifier.sizeOf_part_le (s : ImportSpecifier) :
    ∀ n ∈ s.parts, sizeOf n ≤ sizeOf s := by
  intro n h
  cases s
  simp only [parts, List.mem_cons, List.mem_map, Option.mem_toList] at h
  grind [mk.sizeOf_spec, Node.identifier.sizeOf_spec,
    Option.some.sizeOf_spec]

theorem ImportClause.sizeOf_part_le (c : ImportClause) :
    ∀ n ∈ c.parts, sizeOf n ≤ sizeOf c := by
  intro n h
  have := ImportSpecifier.sizeOf_part_le
  obtain ⟨default?, whole?, named?, span⟩ := c
  cases named?
  all_goals simp only [parts, List.mem_append, List.mem_map,
    Option.mem_toList, List.mem_flatMap, Option.getD_none,
    Option.getD_some, List.not_mem_nil] at h
  all_goals grind [→ List.sizeOf_lt_of_mem, mk.sizeOf_spec,
    Node.identifier.sizeOf_spec, Option.some.sizeOf_spec]

theorem ExportSpecifier.sizeOf_part_le (s : ExportSpecifier) :
    ∀ n ∈ s.parts, sizeOf n ≤ sizeOf s := by
  intro n h
  cases s
  simp only [parts, List.mem_cons, List.mem_map, Option.mem_toList] at h
  grind [mk.sizeOf_spec, Node.identifier.sizeOf_spec,
    Option.some.sizeOf_spec]

theorem Export.sizeOf_part_le (e : Export) :
    ∀ n ∈ e.parts, sizeOf n ≤ sizeOf e := by
  intro n h
  have := ExportSpecifier.sizeOf_part_le
  cases e
  all_goals simp only [parts, List.mem_append, List.mem_map,
    Option.mem_toList, List.mem_flatMap, List.mem_cons,
    List.not_mem_nil, or_false] at h
  all_goals grind [→ List.sizeOf_lt_of_mem, all.sizeOf_spec,
    named.sizeOf_spec, declaration.sizeOf_spec, bindings.sizeOf_spec,
    default.sizeOf_spec, Node.literal.sizeOf_spec,
    Node.expression.sizeOf_spec, Node.declaration.sizeOf_spec,
    Option.some.sizeOf_spec]

theorem ObjectMember.sizeOf_part_le (m : ObjectMember) :
    ∀ n ∈ m.parts, sizeOf n ≤ sizeOf m := by
  intro n h
  cases m with
  | pair key value span =>
    cases key
    all_goals simp only [parts, PropertyKey.part, List.mem_cons,
      List.not_mem_nil, or_false] at h
    all_goals grind [pair.sizeOf_spec, PropertyKey.identifier.sizeOf_spec,
      PropertyKey.string.sizeOf_spec, PropertyKey.number.sizeOf_spec,
      Node.identifier.sizeOf_spec, Node.literal.sizeOf_spec,
      Node.expression.sizeOf_spec]
  | method m => simp_all [parts]
  | error e => simp_all [parts]

theorem ForInit.sizeOf_part (i : ForInit) : sizeOf i.part = sizeOf i := by
  cases i <;> simp [part]

theorem ArrowBody.sizeOf_part (b : ArrowBody) :
    sizeOf b.part = sizeOf b := by
  cases b <;> simp [part]

theorem Expression.sizeOf_child_le (e : Expression) :
    ∀ n ∈ e.children, sizeOf n ≤ sizeOf e := by
  intro n h
  have := ObjectMember.sizeOf_part_le
  cases e
  all_goals simp only [children, List.mem_cons, List.mem_append,
    List.mem_map, List.mem_flatMap, List.not_mem_nil, or_false] at h
  all_goals grind [→ List.sizeOf_lt_of_mem, ArrowBody.sizeOf_part,
    Node.expression.sizeOf_spec, Node.identifier.sizeOf_spec,
    Node.error.sizeOf_spec, Node.literal.sizeOf_spec,
    Node.function.sizeOf_spec, Node.classDef.sizeOf_spec,
    identifier.sizeOf_spec, literal.sizeOf_spec, object.sizeOf_spec,
    array.sizeOf_spec, function.sizeOf_spec, generator.sizeOf_spec,
    arrow.sizeOf_spec, classDef.sizeOf_spec, call.sizeOf_spec,
    newObject.sizeOf_spec, await.sizeOf_spec, member.sizeOf_spec,
    subscript.sizeOf_spec, assignment.sizeOf_spec,
    compoundAssignment.sizeOf_spec, conditional.sizeOf_spec,
    binary.sizeOf_spec, unary.sizeOf_spec, update.sizeOf_spec,
    sequence.sizeOf_spec, parenthesized.sizeOf_spec, error.sizeOf_spec]

theorem Statement.sizeOf_child_le (s : Statement) :
    ∀ n ∈ s.children, sizeOf n ≤ sizeOf s := by
  intro n h
  have := SwitchCase.sizeOf_part_le
  have := CatchClause.sizeOf_part_le
  have := ImportClause.sizeOf_part_le
  have := Export.sizeOf_part_le
  cases s
  case tryBlock body handler? finalizer? span =>
    cases handler?
    all_goals simp only [children, List.mem_cons, List.mem_append,
      List.mem_map, Option.mem_toList, Option.map_some, Option.map_none,
      Option.getD_some, Option.getD_none, List.not_mem_nil] at h
    all_goals grind [tryBlock.sizeOf_spec, Node.block.sizeOf_spec,
      Option.some.sizeOf_spec]
  case importNames clause? source span =>
    cases clause?
    all_goals simp only [children, List.mem_append, List.mem_singleton,
      Option.map_some, Option.map_none, Option.getD_some,
      Option.getD_none, List.not_mem_nil] at h
    all_goals grind [importNames.sizeOf_spec, Node.literal.sizeOf_spec,
      Option.some.sizeOf_spec]
  all_goals simp only [children, List.mem_cons, List.mem_append,
    List.mem_map, List.mem_flatMap, Option.mem_toList, List.not_mem_nil,
    or_false] at h
  all_goals grind [→ List.sizeOf_lt_of_mem, ForInit.sizeOf_part,
    Node.expression.sizeOf_spec, Node.statement.sizeOf_spec,
    Node.block.sizeOf_spec, Node.declaration.sizeOf_spec,
    Node.error.sizeOf_spec, Option.some.sizeOf_spec,
    expression.sizeOf_spec, declaration.sizeOf_spec,
    conditional.sizeOf_spec, switch.sizeOf_spec, forLoop.sizeOf_spec,
    forIn.sizeOf_spec, forOf.sizeOf_spec, whileLoop.sizeOf_spec,
    doWhile.sizeOf_spec, returnValue.sizeOf_spec, yieldValue.sizeOf_spec,
    throwValue.sizeOf_spec, block.sizeOf_spec, exportNames.sizeOf_spec,
    error.sizeOf_spec]

namespace Node

/-- **A node is larger than each node below it.** -/
theorem sizeOf_child_lt {n c : Node} (h : c ∈ n.children) :
    sizeOf c < sizeOf n := by
  have := Declarator.sizeOf_part_le
  have := Expression.sizeOf_child_le
  have := Statement.sizeOf_child_le
  cases n
  case statement s => grind [children, statement.sizeOf_spec]
  case expression e => grind [children, expression.sizeOf_spec]
  case program p =>
    cases p
    simp only [children, List.mem_map] at h
    grind [→ List.sizeOf_lt_of_mem, program.sizeOf_spec,
      Program.mk.sizeOf_spec, statement.sizeOf_spec]
  case block b =>
    cases b
    simp only [children, List.mem_map] at h
    grind [→ List.sizeOf_lt_of_mem, block.sizeOf_spec,
      Block.mk.sizeOf_spec, statement.sizeOf_spec]
  case declaration d =>
    cases d
    simp only [children, List.mem_flatMap] at h
    grind [→ List.sizeOf_lt_of_mem, declaration.sizeOf_spec,
      VariableDeclaration.mk.sizeOf_spec]
  case function f =>
    cases f
    simp only [children, List.mem_append, List.mem_map, Option.mem_toList,
      List.mem_singleton] at h
    grind [→ List.sizeOf_lt_of_mem, function.sizeOf_spec,
      Function.mk.sizeOf_spec, identifier.sizeOf_spec, block.sizeOf_spec,
      Option.some.sizeOf_spec]
  case classDef c =>
    cases c
    simp only [children, List.mem_append, List.mem_map,
      Option.mem_toList] at h
    grind [→ List.sizeOf_lt_of_mem, classDef.sizeOf_spec,
      Class.mk.sizeOf_spec, identifier.sizeOf_spec,
      expression.sizeOf_spec, method.sizeOf_spec, Option.some.sizeOf_spec]
  case method m =>
    cases m
    simp only [children, List.mem_cons, List.mem_append, List.mem_map,
      List.not_mem_nil, or_false] at h
    grind [→ List.sizeOf_lt_of_mem, method.sizeOf_spec,
      Method.mk.sizeOf_spec, identifier.sizeOf_spec, block.sizeOf_spec]
  all_goals simp [children] at h

/-! ## The walk -/

/-- The walk from a node, with the nodes that come after it behind. -/
def walkOnto (enters : Node → Bool) (n : Node) (behind : List Node) :
    List Node :=
  n ::
    if enters n then
      n.children.attach.foldr (fun c ns => walkOnto enters c.1 ns) behind
    else behind
termination_by sizeOf n
decreasing_by exact sizeOf_child_lt c.2

/-- **The nodes a walk visits**, each before the nodes below it. What lies
below a node is passed over unless `enters` says otherwise. -/
def walk (enters : Node → Bool) (n : Node) : List Node :=
  n.walkOnto enters []

/-- **Every node of a tree**, in the order of the text. -/
def all (n : Node) : List Node :=
  n.walk (fun _ => true)

theorem walkOnto_eq (enters : Node → Bool) (n : Node)
    (behind : List Node) :
    n.walkOnto enters behind
      = n :: if enters n then n.children.foldr (walkOnto enters) behind
        else behind := by
  rw [walkOnto, List.foldr_attach]

theorem walkOnto_eq_walk_append (enters : Node → Bool) (n : Node)
    (behind : List Node) :
    n.walkOnto enters behind = n.walk enters ++ behind := by
  have hfold : ∀ cs : List Node, (∀ c ∈ cs, c ∈ n.children) →
      cs.foldr (walkOnto enters) behind
        = cs.foldr (walkOnto enters) [] ++ behind := by
    intro cs hcs
    induction cs with
    | nil => rfl
    | cons c cs ih =>
      rw [List.foldr_cons, List.foldr_cons,
        ih (fun d hd => hcs d (List.mem_cons_of_mem c hd)),
        walkOnto_eq_walk_append enters c,
        walkOnto_eq_walk_append enters c (cs.foldr _ []),
        List.append_assoc]
  rw [walk, walkOnto_eq, walkOnto_eq enters n []]
  split
  · rw [hfold n.children (fun _ hc => hc), List.cons_append]
  · rfl
termination_by sizeOf n
decreasing_by
  all_goals exact sizeOf_child_lt (hcs c (List.mem_cons_self ..))

/-- **A walk is the node and the walks from the nodes right below it**, one
after the other. -/
theorem walk_eq (enters : Node → Bool) (n : Node) :
    n.walk enters
      = n :: if enters n then n.children.flatMap (walk enters) else [] := by
  have hfold : ∀ cs : List Node, cs.foldr (walkOnto enters) []
      = cs.flatMap (walk enters) := by
    intro cs
    induction cs with
    | nil => rfl
    | cons c cs ih =>
      rw [List.foldr_cons, ih, walkOnto_eq_walk_append, List.flatMap_cons]
  rw [walk, walkOnto_eq, hfold]

end Node

end ScriptTree
