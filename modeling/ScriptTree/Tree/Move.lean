import ScriptTree.Tree.Basic

/-!
# Trees moved to another place

The same text may stand in two places, and read in either it makes the
same tree, apart from the spans. `Statement.move` changes the spans of a
tree and nothing else; how an offset is to be changed is up to the caller.
The list of a node's parts is moved part by part, as are the parts that
may be missing.
-/

namespace ScriptTree

/-! ## Leaves -/

/-- A range whose ends are moved. -/
def Span.move (f : Nat → Nat) (s : Span) : Span := ⟨f s.start, f s.stop⟩

/-- A name at another place. -/
def Identifier.move (f : Nat → Nat) (id : Identifier) : Identifier :=
  { id with span := id.span.move f }

/-- A literal at another place. -/
def Literal.move (f : Nat → Nat) (l : Literal) : Literal :=
  { l with span := l.span.move f }

/-- An error node at another place. -/
def ErrorNode.move (f : Nat → Nat) (e : ErrorNode) : ErrorNode :=
  { e with span := e.span.move f }

/-- The key of a pair at another place. -/
def PropertyKey.move (f : Nat → Nat) : PropertyKey → PropertyKey
  | identifier id => identifier (id.move f)
  | string l => string (l.move f)
  | number l => number (l.move f)

/-- One name of an import list at another place. -/
def ImportSpecifier.move (f : Nat → Nat) (s : ImportSpecifier) :
    ImportSpecifier :=
  ⟨s.imported.move f, s.alias?.map (.move f), s.span.move f⟩

/-- The names an import binds at another place. -/
def ImportClause.move (f : Nat → Nat) (c : ImportClause) : ImportClause :=
  ⟨c.default?.map (.move f), c.whole?.map (.move f),
    c.named?.map (List.map (.move f)), c.span.move f⟩

/-- One name of an export list at another place. -/
def ExportSpecifier.move (f : Nat → Nat) (s : ExportSpecifier) :
    ExportSpecifier :=
  ⟨s.localName.move f, s.alias?.map (.move f), s.span.move f⟩

/-! ## Expressions and statements -/

mutual

/-- An expression at another place. -/
def Expression.move (f : Nat → Nat) : Expression → Expression
  | .identifier id => .identifier (id.move f)
  | .literal l => .literal (l.move f)
  | .receiver span => .receiver (span.move f)
  | .super span => .super (span.move f)
  | .object members span => .object (moveMembers f members) (span.move f)
  | .array elements span =>
    .array (moveExpressions f elements) (span.move f)
  | .function h => .function (h.move f)
  | .generator h => .generator (h.move f)
  | .arrow isAsync params body span =>
    .arrow isAsync (params.map (.move f)) (body.move f) (span.move f)
  | .classDef c => .classDef (c.move f)
  | .call callee arguments span =>
    .call (callee.move f) (moveExpressions f arguments) (span.move f)
  | .newObject callee span => .newObject (callee.move f) (span.move f)
  | .await argument span => .await (argument.move f) (span.move f)
  | .member owner property span =>
    .member (owner.move f) (property.move f) (span.move f)
  | .subscript owner index span =>
    .subscript (owner.move f) (index.move f) (span.move f)
  | .assignment target value span =>
    .assignment (target.move f) (value.move f) (span.move f)
  | .compoundAssignment operator target value span =>
    .compoundAssignment operator (target.move f) (value.move f)
      (span.move f)
  | .conditional test consequent alternate span =>
    .conditional (test.move f) (consequent.move f) (alternate.move f)
      (span.move f)
  | .binary operator left right span =>
    .binary operator (left.move f) (right.move f) (span.move f)
  | .unary operator argument span =>
    .unary operator (argument.move f) (span.move f)
  | .update operator leads argument span =>
    .update operator leads (argument.move f) (span.move f)
  | .sequence left right span =>
    .sequence (left.move f) (right.move f) (span.move f)
  | .parenthesized e span => .parenthesized (e.move f) (span.move f)
  | .error e => .error (e.move f)

/-- Expressions side by side at another place. -/
def moveExpressions (f : Nat → Nat) : List Expression → List Expression
  | [] => []
  | e :: es => e.move f :: moveExpressions f es

/-- An expression that may be missing, at another place. -/
def moveExpression? (f : Nat → Nat) : Option Expression → Option Expression
  | none => none
  | some e => some (e.move f)

/-- A member of an object at another place. -/
def ObjectMember.move (f : Nat → Nat) : ObjectMember → ObjectMember
  | .pair key value span => .pair (key.move f) (value.move f) (span.move f)
  | .method m => .method (m.move f)
  | .error e => .error (e.move f)

/-- Members side by side at another place. -/
def moveMembers (f : Nat → Nat) : List ObjectMember → List ObjectMember
  | [] => []
  | m :: ms => m.move f :: moveMembers f ms

/-- The body of an arrow function at another place. -/
def ArrowBody.move (f : Nat → Nat) : ArrowBody → ArrowBody
  | .expression e => .expression (e.move f)
  | .block b => .block (b.move f)

/-- A function at another place. -/
def Function.move (f : Nat → Nat) : Function → Function
  | ⟨id?, params, body, isAsync, span⟩ =>
    ⟨id?.map (.move f), params.map (.move f), body.move f, isAsync,
      span.move f⟩

/-- A class at another place. -/
def Class.move (f : Nat → Nat) : Class → Class
  | ⟨id?, parent?, methods, span⟩ =>
    ⟨id?.map (.move f), moveExpression? f parent?, moveMethods f methods,
      span.move f⟩

/-- A method at another place. -/
def Method.move (f : Nat → Nat) : Method → Method
  | ⟨isStatic, isAsync, kind, key, params, body, span⟩ =>
    ⟨isStatic, isAsync, kind, key.move f, params.map (.move f),
      body.move f, span.move f⟩

/-- Methods side by side at another place. -/
def moveMethods (f : Nat → Nat) : List Method → List Method
  | [] => []
  | m :: ms => m.move f :: moveMethods f ms

/-- A block at another place. -/
def Block.move (f : Nat → Nat) : Block → Block
  | ⟨body, span⟩ => ⟨moveStatements f body, span.move f⟩

/-- A declaration at another place. -/
def VariableDeclaration.move (f : Nat → Nat) :
    VariableDeclaration → VariableDeclaration
  | ⟨kind, declarators, span⟩ =>
    ⟨kind, moveDeclarators f declarators, span.move f⟩

/-- A binding at another place. -/
def Declarator.move (f : Nat → Nat) : Declarator → Declarator
  | .binding id init? span =>
    .binding (id.move f) (moveExpression? f init?) (span.move f)
  | .error e => .error (e.move f)

/-- Bindings side by side at another place. -/
def moveDeclarators (f : Nat → Nat) : List Declarator → List Declarator
  | [] => []
  | d :: ds => d.move f :: moveDeclarators f ds

/-- A clause of a switch at another place. -/
def SwitchCase.move (f : Nat → Nat) : SwitchCase → SwitchCase
  | ⟨test?, consequent, span⟩ =>
    ⟨moveExpression? f test?, moveStatements f consequent, span.move f⟩

/-- Clauses side by side at another place. -/
def moveCases (f : Nat → Nat) : List SwitchCase → List SwitchCase
  | [] => []
  | c :: cs => c.move f :: moveCases f cs

/-- What a counting loop does first, at another place. -/
def ForInit.move (f : Nat → Nat) : ForInit → ForInit
  | .declaration d => .declaration (d.move f)
  | .expression e => .expression (e.move f)

/-- The same where it may be missing. -/
def moveInit? (f : Nat → Nat) : Option ForInit → Option ForInit
  | none => none
  | some i => some (i.move f)

/-- What is done about an exception, at another place. -/
def CatchClause.move (f : Nat → Nat) : CatchClause → CatchClause
  | ⟨param?, body, span⟩ =>
    ⟨param?.map (.move f), body.move f, span.move f⟩

/-- The same where it may be missing. -/
def moveHandler? (f : Nat → Nat) : Option CatchClause → Option CatchClause
  | none => none
  | some c => some (c.move f)

/-- A block that may be missing, at another place. -/
def moveBlock? (f : Nat → Nat) : Option Block → Option Block
  | none => none
  | some b => some (b.move f)

/-- What a module exports, at another place. -/
def Export.move (f : Nat → Nat) : Export → Export
  | .all source => .all (source.move f)
  | .named specifiers source? =>
    .named (specifiers.map (.move f)) (source?.map (.move f))
  | .declaration e => .declaration (e.move f)
  | .bindings d => .bindings (d.move f)
  | .default e => .default (e.move f)

/-- A statement at another place. -/
def Statement.move (f : Nat → Nat) : Statement → Statement
  | .expression e span => .expression (e.move f) (span.move f)
  | .declaration d => .declaration (d.move f)
  | .conditional test consequent alternate? span =>
    .conditional (test.move f) (consequent.move f)
      (moveStatement? f alternate?) (span.move f)
  | .switch discriminant cases span =>
    .switch (discriminant.move f) (moveCases f cases) (span.move f)
  | .forLoop init? test? update? body span =>
    .forLoop (moveInit? f init?) (moveExpression? f test?)
      (moveExpression? f update?) (body.move f) (span.move f)
  | .forIn kind? left right body span =>
    .forIn kind? (left.move f) (right.move f) (body.move f) (span.move f)
  | .forOf kind? left right body span =>
    .forOf kind? (left.move f) (right.move f) (body.move f) (span.move f)
  | .whileLoop test body span =>
    .whileLoop (test.move f) (body.move f) (span.move f)
  | .doWhile body test span =>
    .doWhile (body.move f) (test.move f) (span.move f)
  | .tryBlock body handler? finalizer? span =>
    .tryBlock (body.move f) (moveHandler? f handler?)
      (moveBlock? f finalizer?) (span.move f)
  | .breakLoop span => .breakLoop (span.move f)
  | .continueLoop span => .continueLoop (span.move f)
  | .returnValue argument? span =>
    .returnValue (moveExpression? f argument?) (span.move f)
  | .yieldValue argument? span =>
    .yieldValue (moveExpression? f argument?) (span.move f)
  | .throwValue argument span => .throwValue (argument.move f) (span.move f)
  | .empty span => .empty (span.move f)
  | .block b => .block (b.move f)
  | .importNames clause? source span =>
    .importNames (clause?.map (.move f)) (source.move f) (span.move f)
  | .exportNames e span => .exportNames (e.move f) (span.move f)
  | .error e => .error (e.move f)

/-- A statement that may be missing, at another place. -/
def moveStatement? (f : Nat → Nat) : Option Statement → Option Statement
  | none => none
  | some s => some (s.move f)

/-- Statements side by side at another place. -/
def moveStatements (f : Nat → Nat) : List Statement → List Statement
  | [] => []
  | s :: ss => s.move f :: moveStatements f ss

end

/-! ## Part by part -/

section Parts

variable (f : Nat → Nat)

theorem moveExpressions_eq (es : List Expression) :
    moveExpressions f es = es.map (.move f) := by
  induction es with
  | nil => rfl
  | cons e es ih => rw [moveExpressions, ih, List.map_cons]

theorem moveMembers_eq (ms : List ObjectMember) :
    moveMembers f ms = ms.map (.move f) := by
  induction ms with
  | nil => rfl
  | cons m ms ih => rw [moveMembers, ih, List.map_cons]

theorem moveMethods_eq (ms : List Method) :
    moveMethods f ms = ms.map (.move f) := by
  induction ms with
  | nil => rfl
  | cons m ms ih => rw [moveMethods, ih, List.map_cons]

theorem moveDeclarators_eq (ds : List Declarator) :
    moveDeclarators f ds = ds.map (.move f) := by
  induction ds with
  | nil => rfl
  | cons d ds ih => rw [moveDeclarators, ih, List.map_cons]

theorem moveCases_eq (cs : List SwitchCase) :
    moveCases f cs = cs.map (.move f) := by
  induction cs with
  | nil => rfl
  | cons c cs ih => rw [moveCases, ih, List.map_cons]

theorem moveStatements_eq (ss : List Statement) :
    moveStatements f ss = ss.map (.move f) := by
  induction ss with
  | nil => rfl
  | cons s ss ih => rw [moveStatements, ih, List.map_cons]

theorem moveExpression?_eq (e? : Option Expression) :
    moveExpression? f e? = e?.map (.move f) := by
  cases e? <;> rfl

theorem moveInit?_eq (i? : Option ForInit) :
    moveInit? f i? = i?.map (.move f) := by
  cases i? <;> rfl

theorem moveHandler?_eq (c? : Option CatchClause) :
    moveHandler? f c? = c?.map (.move f) := by
  cases c? <;> rfl

theorem moveBlock?_eq (b? : Option Block) :
    moveBlock? f b? = b?.map (.move f) := by
  cases b? <;> rfl

theorem moveStatement?_eq (s? : Option Statement) :
    moveStatement? f s? = s?.map (.move f) := by
  cases s? <;> rfl

/-! ## What the grammar sees of a tree -/

theorem Expression.move_span (e : Expression) :
    (e.move f).span = e.span.move f := by
  cases e with
  | function h | generator h => cases h; rfl
  | classDef c => cases c; rfl
  | _ => rfl

theorem Expression.move_isAssignmentTarget (e : Expression) :
    (e.move f).isAssignmentTarget = e.isAssignmentTarget := by
  cases e <;> rfl

theorem Expression.move_isDeclarationLike (e : Expression) :
    (e.move f).isDeclarationLike = e.isDeclarationLike := by
  cases e <;> rfl

theorem Expression.move_isError (e : Expression) :
    (e.move f).isError = e.isError := by
  cases e <;> rfl

end Parts

end ScriptTree
