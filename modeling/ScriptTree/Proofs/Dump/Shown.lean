import ScriptTree.Tree.Dump
import ScriptTree.Tree.Move

/-!
# What a dump tells of a tree

Two things are not in the term of a tree. One is where its nodes stand. The
other is the word in front of a function without a name: the term of a
function begins with the mark for this word and goes on with the name, both
are atoms, and either may be missing. So a function without a name that was
declared to run on the side has the term of an ordinary function whose name
is the mark.

`Statement.shown` leaves out the places and takes such a function for one
with a name. It changes nothing that the term shows (`Statement.shown_term`).
-/

namespace ScriptTree

/-- All places taken for one. -/
def nowhere : Nat → Nat := fun _ => 0

/-- **What is told of a function's name** and of whether it runs on the
side: the mark alone is taken for a name. -/
def headingShown : Option Identifier → Bool → Option Identifier × Bool
  | none, true => (some ⟨"async", ⟨0, 0⟩⟩, false)
  | id?, isAsync => (id?.map (.move nowhere), isAsync)

mutual

/-- **What is told of an expression.** -/
def Expression.shown : Expression → Expression
  | .identifier id => .identifier (id.move nowhere)
  | .literal l => .literal (l.move nowhere)
  | .receiver _ => .receiver ⟨0, 0⟩
  | .super _ => .super ⟨0, 0⟩
  | .object members _ => .object (shownMembers members) ⟨0, 0⟩
  | .array elements _ => .array (shownExpressions elements) ⟨0, 0⟩
  | .function f => .function f.shown
  | .generator f => .generator f.shown
  | .arrow isAsync params body _ =>
    .arrow isAsync (params.map (.move nowhere)) body.shown ⟨0, 0⟩
  | .classDef c => .classDef c.shown
  | .call callee arguments _ =>
    .call callee.shown (shownExpressions arguments) ⟨0, 0⟩
  | .newObject callee _ => .newObject callee.shown ⟨0, 0⟩
  | .await argument _ => .await argument.shown ⟨0, 0⟩
  | .member owner property _ =>
    .member owner.shown (property.move nowhere) ⟨0, 0⟩
  | .subscript owner index _ => .subscript owner.shown index.shown ⟨0, 0⟩
  | .assignment target value _ =>
    .assignment target.shown value.shown ⟨0, 0⟩
  | .compoundAssignment operator target value _ =>
    .compoundAssignment operator target.shown value.shown ⟨0, 0⟩
  | .conditional test consequent alternate _ =>
    .conditional test.shown consequent.shown alternate.shown ⟨0, 0⟩
  | .binary operator left right _ =>
    .binary operator left.shown right.shown ⟨0, 0⟩
  | .unary operator argument _ => .unary operator argument.shown ⟨0, 0⟩
  | .update operator leads argument _ =>
    .update operator leads argument.shown ⟨0, 0⟩
  | .sequence left right _ => .sequence left.shown right.shown ⟨0, 0⟩
  | .parenthesized e _ => .parenthesized e.shown ⟨0, 0⟩
  | .error e => .error (e.move nowhere)

/-- What is told of expressions side by side. -/
def shownExpressions : List Expression → List Expression
  | [] => []
  | e :: es => e.shown :: shownExpressions es

/-- What is told of an expression that may be missing. -/
def shownExpression? : Option Expression → Option Expression
  | none => none
  | some e => some e.shown

/-- What is told of a member of an object. -/
def ObjectMember.shown : ObjectMember → ObjectMember
  | .pair key value _ => .pair (key.move nowhere) value.shown ⟨0, 0⟩
  | .method m => .method m.shown
  | .error e => .error (e.move nowhere)

/-- What is told of members side by side. -/
def shownMembers : List ObjectMember → List ObjectMember
  | [] => []
  | m :: ms => m.shown :: shownMembers ms

/-- What is told of the body of an arrow function. -/
def ArrowBody.shown : ArrowBody → ArrowBody
  | .expression e => .expression e.shown
  | .block b => .block b.shown

/-- **What is told of a function.** -/
def Function.shown : Function → Function
  | ⟨id?, params, body, isAsync, _⟩ =>
    ⟨(headingShown id? isAsync).1, params.map (.move nowhere), body.shown,
      (headingShown id? isAsync).2, ⟨0, 0⟩⟩

/-- What is told of a class. -/
def Class.shown : Class → Class
  | ⟨id?, parent?, methods, _⟩ =>
    ⟨id?.map (.move nowhere), shownExpression? parent?,
      shownMethods methods, ⟨0, 0⟩⟩

/-- What is told of a method. -/
def Method.shown : Method → Method
  | ⟨isStatic, isAsync, kind, key, params, body, _⟩ =>
    ⟨isStatic, isAsync, kind, key.move nowhere,
      params.map (.move nowhere), body.shown, ⟨0, 0⟩⟩

/-- What is told of methods side by side. -/
def shownMethods : List Method → List Method
  | [] => []
  | m :: ms => m.shown :: shownMethods ms

/-- What is told of a block. -/
def Block.shown : Block → Block
  | ⟨body, _⟩ => ⟨shownStatements body, ⟨0, 0⟩⟩

/-- What is told of a declaration. -/
def VariableDeclaration.shown : VariableDeclaration → VariableDeclaration
  | ⟨kind, declarators, _⟩ => ⟨kind, shownDeclarators declarators, ⟨0, 0⟩⟩

/-- What is told of a binding. -/
def Declarator.shown : Declarator → Declarator
  | .binding id init? _ =>
    .binding (id.move nowhere) (shownExpression? init?) ⟨0, 0⟩
  | .error e => .error (e.move nowhere)

/-- What is told of bindings side by side. -/
def shownDeclarators : List Declarator → List Declarator
  | [] => []
  | d :: ds => d.shown :: shownDeclarators ds

/-- What is told of a clause of a switch. -/
def SwitchCase.shown : SwitchCase → SwitchCase
  | ⟨test?, consequent, _⟩ =>
    ⟨shownExpression? test?, shownStatements consequent, ⟨0, 0⟩⟩

/-- What is told of clauses side by side. -/
def shownCases : List SwitchCase → List SwitchCase
  | [] => []
  | c :: cs => c.shown :: shownCases cs

/-- What is told of what a counting loop does first. -/
def ForInit.shown : ForInit → ForInit
  | .declaration d => .declaration d.shown
  | .expression e => .expression e.shown

/-- The same where it may be missing. -/
def shownInit? : Option ForInit → Option ForInit
  | none => none
  | some i => some i.shown

/-- What is told of what is done about an exception. -/
def CatchClause.shown : CatchClause → CatchClause
  | ⟨param?, body, _⟩ => ⟨param?.map (.move nowhere), body.shown, ⟨0, 0⟩⟩

/-- The same where it may be missing. -/
def shownHandler? : Option CatchClause → Option CatchClause
  | none => none
  | some c => some c.shown

/-- What is told of a block that may be missing. -/
def shownBlock? : Option Block → Option Block
  | none => none
  | some b => some b.shown

/-- What is told of what a module exports. -/
def Export.shown : Export → Export
  | .all source => .all (source.move nowhere)
  | .named specifiers source? =>
    .named (specifiers.map (.move nowhere)) (source?.map (.move nowhere))
  | .declaration e => .declaration e.shown
  | .bindings d => .bindings d.shown
  | .default e => .default e.shown

/-- **What is told of a statement.** -/
def Statement.shown : Statement → Statement
  | .expression e _ => .expression e.shown ⟨0, 0⟩
  | .declaration d => .declaration d.shown
  | .conditional test consequent alternate? _ =>
    .conditional test.shown consequent.shown (shownStatement? alternate?)
      ⟨0, 0⟩
  | .switch discriminant cases _ =>
    .switch discriminant.shown (shownCases cases) ⟨0, 0⟩
  | .forLoop init? test? update? body _ =>
    .forLoop (shownInit? init?) (shownExpression? test?)
      (shownExpression? update?) body.shown ⟨0, 0⟩
  | .forIn kind? left right body _ =>
    .forIn kind? left.shown right.shown body.shown ⟨0, 0⟩
  | .forOf kind? left right body _ =>
    .forOf kind? left.shown right.shown body.shown ⟨0, 0⟩
  | .whileLoop test body _ => .whileLoop test.shown body.shown ⟨0, 0⟩
  | .doWhile body test _ => .doWhile body.shown test.shown ⟨0, 0⟩
  | .tryBlock body handler? finalizer? _ =>
    .tryBlock body.shown (shownHandler? handler?) (shownBlock? finalizer?)
      ⟨0, 0⟩
  | .breakLoop _ => .breakLoop ⟨0, 0⟩
  | .continueLoop _ => .continueLoop ⟨0, 0⟩
  | .returnValue argument? _ =>
    .returnValue (shownExpression? argument?) ⟨0, 0⟩
  | .yieldValue argument? _ =>
    .yieldValue (shownExpression? argument?) ⟨0, 0⟩
  | .throwValue argument _ => .throwValue argument.shown ⟨0, 0⟩
  | .empty _ => .empty ⟨0, 0⟩
  | .block b => .block b.shown
  | .importNames clause? source _ =>
    .importNames (clause?.map (.move nowhere)) (source.move nowhere) ⟨0, 0⟩
  | .exportNames e _ => .exportNames e.shown ⟨0, 0⟩
  | .error e => .error (e.move nowhere)

/-- What is told of a statement that may be missing. -/
def shownStatement? : Option Statement → Option Statement
  | none => none
  | some s => some s.shown

/-- What is told of statements side by side. -/
def shownStatements : List Statement → List Statement
  | [] => []
  | s :: ss => s.shown :: shownStatements ss

end

/-! ## The term shows no more -/

section Leaves

variable (f : Nat → Nat)

/-- A name has the same term wherever it stands. -/
@[simp] theorem Identifier.move_term (id : Identifier) :
    (id.move f).term = id.term := rfl

@[simp] theorem Identifier.move_atom (id : Identifier) :
    (id.move f).atom = id.atom := rfl

@[simp] theorem Identifier.atom_comp_move :
    Identifier.atom ∘ Identifier.move f = Identifier.atom := rfl

@[simp] theorem Identifier.term_comp_move :
    Identifier.term ∘ Identifier.move f = Identifier.term := rfl

/-- Text that could not be read is told as it stands. -/
@[simp] theorem ErrorNode.move_term (e : ErrorNode) :
    (e.move f).term = e.term := rfl

/-- A literal is told by its kind and its text. -/
@[simp] theorem Literal.move_term (l : Literal) :
    (l.move f).term = l.term := rfl

@[simp] theorem Literal.term_comp_move :
    Literal.term ∘ Literal.move f = Literal.term := rfl

/-- A key is told by what it is, and not by where. -/
@[simp] theorem PropertyKey.move_term (key : PropertyKey) :
    (key.move f).term = key.term := by
  cases key <;> rfl

/-- Parameters are told one by one. -/
@[simp] theorem paramsTerm_move (params : List Identifier) :
    paramsTerm (params.map (.move f)) = paramsTerm params := by
  simp [paramsTerm]

/-- A name of an import list may have a second one, which is told too. -/
@[simp] theorem ImportSpecifier.move_term (s : ImportSpecifier) :
    (s.move f).term = s.term := by
  simp [ImportSpecifier.term, ImportSpecifier.move, Option.toList_map]

@[simp] theorem ExportSpecifier.move_term (s : ExportSpecifier) :
    (s.move f).term = s.term := by
  simp [ExportSpecifier.term, ExportSpecifier.move, Option.toList_map]

/-- An import clause is told by the names in it. -/
@[simp] theorem ImportClause.move_terms (c : ImportClause) :
    (c.move f).terms = c.terms := by
  obtain ⟨default?, whole?, named?, span⟩ := c
  cases named? <;> simp [ImportClause.terms, ImportClause.move,
    Option.toList_map, Function.comp_def]

end Leaves

/-- A name that is taken from the mark shows as the mark. -/
theorem headingShown_terms (id? : Option Identifier) (isAsync : Bool) :
    flagTerm (headingShown id? isAsync).2 "async"
        ++ (headingShown id? isAsync).1.toList.map Identifier.atom
      = flagTerm isAsync "async" ++ id?.toList.map Identifier.atom := by
  cases id? <;> cases isAsync <;> rfl

mutual

/-- **What is told of an expression** is in its term. -/
theorem Expression.shown_term (e : Expression) : e.shown.term = e.term := by
  cases e with
  | function f | generator f =>
    simp [Expression.shown, Expression.term, Function.shown_terms f]
  | _ =>
    simp only [Expression.shown, Expression.term, Expression.shown_term,
      shownExpressions_terms, shownMembers_terms, ArrowBody.shown_term,
      Class.shown_term, Identifier.move_term, Identifier.move_atom,
      Literal.move_term, ErrorNode.move_term, paramsTerm_move]

/-- A list of expressions is told one by one. -/
theorem shownExpressions_terms (es : List Expression) :
    expressionTerms (shownExpressions es) = expressionTerms es := by
  cases es <;> simp [shownExpressions, expressionTerms,
    Expression.shown_term, shownExpressions_terms]

/-- Where an expression is missing nothing may be told of it. -/
theorem shownExpression?_terms (e? : Option Expression) :
    optionalTerms (shownExpression? e?) = optionalTerms e? := by
  cases e? <;> simp [shownExpression?, optionalTerms, Expression.shown_term]

/-- Elsewhere a mark tells that it is missing. -/
theorem shownExpression?_term (e? : Option Expression) :
    optionalTerm (shownExpression? e?) = optionalTerm e? := by
  cases e? <;> simp [shownExpression?, optionalTerm, Expression.shown_term]

/-- **A member of an object** is told as the expressions in it are. -/
theorem ObjectMember.shown_term (m : ObjectMember) :
    m.shown.term = m.term := by
  cases m <;> simp [ObjectMember.shown, ObjectMember.term,
    Expression.shown_term, Method.shown_term]

theorem shownMembers_terms (ms : List ObjectMember) :
    memberTerms (shownMembers ms) = memberTerms ms := by
  cases ms <;> simp [shownMembers, memberTerms, ObjectMember.shown_term,
    shownMembers_terms]

/-- The body of an arrow function is an expression or a block. -/
theorem ArrowBody.shown_term (b : ArrowBody) : b.shown.term = b.term := by
  cases b <;> simp [ArrowBody.shown, ArrowBody.term, Expression.shown_term,
    Block.shown_term]

/-- **A function** is told by its heading, in which the word for functions
that run on the side stands for itself (`headingShown_terms`). -/
theorem Function.shown_terms (f : Function) : f.shown.terms = f.terms := by
  cases f
  simp only [Function.shown, Function.terms, headingShown_terms,
    paramsTerm_move, Block.shown_term]

/-- **A class** is told by its parent and its methods. -/
theorem Class.shown_term (c : Class) : c.shown.term = c.term := by
  cases c
  simp [Class.shown, Class.term, Option.toList_map, shownParent_terms,
    shownMethods_terms]

theorem shownParent_terms (e? : Option Expression) :
    parentTerms (shownExpression? e?) = parentTerms e? := by
  cases e? <;> simp [shownExpression?, parentTerms, Expression.shown_term]

/-- A method has no heading to change. -/
theorem Method.shown_term (m : Method) : m.shown.term = m.term := by
  cases m
  simp [Method.shown, Method.term, Block.shown_term]

theorem shownMethods_terms (ms : List Method) :
    methodTerms (shownMethods ms) = methodTerms ms := by
  cases ms <;> simp [shownMethods, methodTerms, Method.shown_term,
    shownMethods_terms]

/-- **A block** is told by its statements. -/
theorem Block.shown_term (b : Block) : b.shown.term = b.term := by
  cases b
  simp [Block.shown, Block.term, shownStatements_terms]

/-- A declaration is told by its bindings. -/
theorem VariableDeclaration.shown_term (d : VariableDeclaration) :
    d.shown.term = d.term := by
  cases d
  simp [VariableDeclaration.shown, VariableDeclaration.term,
    shownDeclarators_terms]

/-- One binding, or text in the place of one. -/
theorem Declarator.shown_term (d : Declarator) : d.shown.term = d.term := by
  cases d <;> simp [Declarator.shown, Declarator.term,
    shownExpression?_terms]

theorem shownDeclarators_terms (ds : List Declarator) :
    declaratorTerms (shownDeclarators ds) = declaratorTerms ds := by
  cases ds <;> simp [shownDeclarators, declaratorTerms,
    Declarator.shown_term, shownDeclarators_terms]

/-- A clause of a switch, or its default clause. -/
theorem SwitchCase.shown_term (c : SwitchCase) : c.shown.term = c.term := by
  obtain ⟨test?, consequent, span⟩ := c
  cases test? <;> simp [SwitchCase.shown, SwitchCase.term,
    shownExpression?, Expression.shown_term, shownStatements_terms]

theorem shownCases_terms (cs : List SwitchCase) :
    caseTerms (shownCases cs) = caseTerms cs := by
  cases cs <;> simp [shownCases, caseTerms, SwitchCase.shown_term,
    shownCases_terms]

/-- The first part of a header is a declaration or an expression. -/
theorem ForInit.shown_term (i : ForInit) : i.shown.term = i.term := by
  cases i <;> simp [ForInit.shown, ForInit.term,
    VariableDeclaration.shown_term, Expression.shown_term]

theorem shownInit?_term (i? : Option ForInit) :
    initTerm (shownInit? i?) = initTerm i? := by
  cases i? <;> simp [shownInit?, initTerm, ForInit.shown_term]

/-- What is done about an exception is told by its block. -/
theorem CatchClause.shown_term (c : CatchClause) :
    c.shown.term = c.term := by
  cases c
  simp [CatchClause.shown, CatchClause.term, Option.toList_map,
    Block.shown_term]

theorem shownHandler?_terms (c? : Option CatchClause) :
    catchTerms (shownHandler? c?) = catchTerms c? := by
  cases c? <;> simp [shownHandler?, catchTerms, CatchClause.shown_term]

theorem shownBlock?_terms (b? : Option Block) :
    finallyTerms (shownBlock? b?) = finallyTerms b? := by
  cases b? <;> simp [shownBlock?, finallyTerms, Block.shown_term]

/-- **An export** is told by what it names. -/
theorem Export.shown_terms (e : Export) : e.shown.terms = e.terms := by
  cases e <;> simp [Export.shown, Export.terms, Option.toList_map,
    Function.comp_def, Expression.shown_term, VariableDeclaration.shown_term]

/-- **What is told of a statement** is in its term. -/
theorem Statement.shown_term (s : Statement) : s.shown.term = s.term := by
  cases s with
  | importNames clause? source span =>
    cases clause? <;> simp [Statement.shown, Statement.term]
  | _ =>
    simp only [Statement.shown, Statement.term, Expression.shown_term,
      VariableDeclaration.shown_term, Statement.shown_term,
      shownStatement?_terms, shownCases_terms, shownInit?_term,
      shownExpression?_term, shownExpression?_terms, Block.shown_term,
      shownHandler?_terms, shownBlock?_terms, Export.shown_terms,
      ErrorNode.move_term]

/-- The branch that may be missing. -/
theorem shownStatement?_terms (s? : Option Statement) :
    alternateTerms (shownStatement? s?) = alternateTerms s? := by
  cases s? <;> simp [shownStatement?, alternateTerms, Statement.shown_term]

/-- A list of statements is told one by one. -/
theorem shownStatements_terms (ss : List Statement) :
    statementTerms (shownStatements ss) = statementTerms ss := by
  cases ss <;> simp [shownStatements, statementTerms, Statement.shown_term,
    shownStatements_terms]

end

/-! ## Part by part -/

/-- What goes along a list and does the same with each element. -/
theorem eq_map {α β : Type} {F : List α → List β} {f : α → β}
    (hnil : F [] = []) (hcons : ∀ x xs, F (x :: xs) = f x :: F xs)
    (xs : List α) : F xs = xs.map f := by
  induction xs with
  | nil => exact hnil
  | cons x xs ih => rw [hcons, ih, List.map_cons]

/-- The lists of a tree are told element by element. -/
theorem expressionTerms_eq :
    ∀ xs, expressionTerms xs = xs.map Expression.term :=
  eq_map rfl fun _ _ => rfl

theorem memberTerms_eq : ∀ xs, memberTerms xs = xs.map ObjectMember.term :=
  eq_map rfl fun _ _ => rfl

theorem methodTerms_eq : ∀ xs, methodTerms xs = xs.map Method.term :=
  eq_map rfl fun _ _ => rfl

theorem declaratorTerms_eq :
    ∀ xs, declaratorTerms xs = xs.map Declarator.term :=
  eq_map rfl fun _ _ => rfl

theorem caseTerms_eq : ∀ xs, caseTerms xs = xs.map SwitchCase.term :=
  eq_map rfl fun _ _ => rfl

theorem statementTerms_eq : ∀ xs, statementTerms xs = xs.map Statement.term :=
  eq_map rfl fun _ _ => rfl

/-- And they are shown element by element. -/
theorem shownExpressions_eq :
    ∀ xs, shownExpressions xs = xs.map Expression.shown :=
  eq_map rfl fun _ _ => rfl

theorem shownMembers_eq : ∀ xs, shownMembers xs = xs.map ObjectMember.shown :=
  eq_map rfl fun _ _ => rfl

theorem shownMethods_eq : ∀ xs, shownMethods xs = xs.map Method.shown :=
  eq_map rfl fun _ _ => rfl

theorem shownDeclarators_eq :
    ∀ xs, shownDeclarators xs = xs.map Declarator.shown :=
  eq_map rfl fun _ _ => rfl

theorem shownCases_eq : ∀ xs, shownCases xs = xs.map SwitchCase.shown :=
  eq_map rfl fun _ _ => rfl

theorem shownStatements_eq :
    ∀ xs, shownStatements xs = xs.map Statement.shown :=
  eq_map rfl fun _ _ => rfl

end ScriptTree
