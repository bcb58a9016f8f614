import ScriptTree.Text.Location
import ScriptTree.Tree.Operators

/-!
# Syntax trees

The tree of a script. Every node owns its parts and carries the span of
the text it was read from. Nothing is resolved or simplified: names are
as written, strings keep their escapes, and parentheses are nodes.

Wherever reading can go wrong the type has an **error** alternative –
for statements, expressions, members of an object and bindings – which
holds the text that was passed over. A tree with errors in it is a tree
like any other.

Expressions hold statements (in the bodies of functions) and statements
hold expressions, so the types are defined together.
-/

namespace ScriptTree

/-! ## Leaves -/

/-- **A name**, where it is bound, used, or names a property. -/
structure Identifier where
  /-- The name as written. -/
  name : String
  /-- Where it stands. -/
  span : Span
deriving Repr, DecidableEq

/-- **Text that could not be read.** -/
structure ErrorNode where
  /-- The text itself. -/
  text : String
  /-- Where it stands. -/
  span : Span
deriving Repr, DecidableEq

/-- **What a literal stands for.** -/
inductive LiteralKind where
  /-- A number. -/
  | number
  /-- A quoted string. -/
  | string
  /-- A text between back quotes. -/
  | template
  /-- A regular expression: what lies between the slashes, and what lies
  behind the last of them. -/
  | regex (pattern flags : String)
  /-- A truth value. -/
  | boolean (value : Bool)
  /-- The null value. -/
  | null
  /-- The undefined value. -/
  | undefined
deriving Repr, DecidableEq

/-- **A value written out.** -/
structure Literal where
  /-- What it stands for. -/
  kind : LiteralKind
  /-- The literal as written. -/
  raw : String
  /-- Where it stands. -/
  span : Span
deriving Repr, DecidableEq

/-- **The word that opens a declaration.** -/
inductive VarKind where
  | varWord | letWord | constWord
deriving Repr, DecidableEq

/-- The word itself. -/
def VarKind.spelling : VarKind → String
  | varWord => "var"
  | letWord => "let"
  | constWord => "const"

/-- **The flavours of a method.** -/
inductive MethodKind where
  /-- An ordinary method. -/
  | method
  /-- A getter. -/
  | get
  /-- A setter. -/
  | set
  /-- A generator. -/
  | generator
deriving Repr, DecidableEq

/-- **The key of a pair in an object.** -/
inductive PropertyKey where
  /-- A name, reserved or not. -/
  | identifier (id : Identifier)
  /-- A string. -/
  | string (literal : Literal)
  /-- A number. -/
  | number (literal : Literal)
deriving Repr, DecidableEq

/-- Where the key stands. -/
def PropertyKey.span : PropertyKey → Span
  | identifier id => id.span
  | string literal | number literal => literal.span

/-! ## Names that cross a module's border -/

/-- **One name of an import list**, with the name it gets here. -/
structure ImportSpecifier where
  /-- Its name in the other module. -/
  imported : Identifier
  /-- Its name here, if another one is given. -/
  alias? : Option Identifier
  /-- Where the two stand. -/
  span : Span
deriving Repr, DecidableEq

/-- **The names an import binds.** -/
structure ImportClause where
  /-- The name for the module's default. -/
  default? : Option Identifier
  /-- The name for the module as a whole. -/
  whole? : Option Identifier
  /-- The list of single names. -/
  named? : Option (List ImportSpecifier)
  /-- Where all of them stand. -/
  span : Span
deriving Repr, DecidableEq

/-- **One name of an export list**, with the name it gets outside. -/
structure ExportSpecifier where
  /-- Its name here. -/
  localName : Identifier
  /-- Its name outside, if another one is given. -/
  alias? : Option Identifier
  /-- Where the two stand. -/
  span : Span
deriving Repr, DecidableEq

/-! ## Expressions and statements -/

mutual

/-- **An expression.** -/
inductive Expression where
  /-- A name. -/
  | identifier (id : Identifier)
  /-- A literal. -/
  | literal (literal : Literal)
  /-- The object a method was called on. -/
  | receiver (span : Span)
  /-- The same object seen as one of its superclass. -/
  | super (span : Span)
  /-- An object written out. -/
  | object (members : List ObjectMember) (span : Span)
  /-- An array written out. -/
  | array (elements : List Expression) (span : Span)
  /-- A function. -/
  | function (f : Function)
  /-- A generator function. -/
  | generator (f : Function)
  /-- An arrow function. -/
  | arrow (isAsync : Bool) (params : List Identifier) (body : ArrowBody)
      (span : Span)
  /-- A class. -/
  | classDef (c : Class)
  /-- A call. -/
  | call (callee : Expression) (arguments : List Expression) (span : Span)
  /-- The making of an object; the operand is a call where arguments are
  given. -/
  | newObject (callee : Expression) (span : Span)
  /-- A wait for a value. -/
  | await (argument : Expression) (span : Span)
  /-- Access to a member by its name. -/
  | member (object : Expression) (property : Identifier) (span : Span)
  /-- Access to a member by a value. -/
  | subscript (object index : Expression) (span : Span)
  /-- An assignment. -/
  | assignment (target value : Expression) (span : Span)
  /-- An assignment that computes with the old value. -/
  | compoundAssignment (operator : CompoundOperator)
      (target value : Expression) (span : Span)
  /-- A choice between two expressions. -/
  | conditional (test consequent alternate : Expression) (span : Span)
  /-- An operation on two operands. -/
  | binary (operator : BinaryOperator) (left right : Expression)
      (span : Span)
  /-- An operation on the operand that follows. -/
  | unary (operator : UnaryOperator) (argument : Expression) (span : Span)
  /-- An increment or decrement; `leads` says whether the sign comes
  before the operand. -/
  | update (operator : UpdateOperator) (leads : Bool)
      (argument : Expression) (span : Span)
  /-- Two expressions of which the second is the value. -/
  | sequence (left right : Expression) (span : Span)
  /-- An expression in parentheses. -/
  | parenthesized (expression : Expression) (span : Span)
  /-- Text that could not be read. -/
  | error (node : ErrorNode)

/-- **A member of an object written out.** -/
inductive ObjectMember where
  /-- A key with its value. -/
  | pair (key : PropertyKey) (value : Expression) (span : Span)
  /-- A method. -/
  | method (m : Method)
  /-- Text that could not be read. -/
  | error (node : ErrorNode)

/-- **The body of an arrow function.** -/
inductive ArrowBody where
  /-- The value itself. -/
  | expression (e : Expression)
  /-- Statements. -/
  | block (b : Block)

/-- **A function or generator.** -/
structure Function where
  /-- Its name, if it has one. -/
  id? : Option Identifier
  /-- The names of its parameters. -/
  params : List Identifier
  /-- What it does. -/
  body : Block
  /-- Whether it was declared to run on the side. -/
  isAsync : Bool
  /-- Where it stands. -/
  span : Span

/-- **A class.** -/
structure Class where
  /-- Its name, if it has one. -/
  id? : Option Identifier
  /-- The expression for the class it extends. -/
  parent? : Option Expression
  /-- Its methods. -/
  methods : List Method
  /-- Where it stands. -/
  span : Span

/-- **A method**, of a class or of an object written out. -/
structure Method where
  /-- Whether it belongs to the class and not to its objects. -/
  isStatic : Bool
  /-- Whether it was declared to run on the side. -/
  isAsync : Bool
  /-- Its flavour. -/
  kind : MethodKind
  /-- Its name. -/
  key : Identifier
  /-- The names of its parameters. -/
  params : List Identifier
  /-- What it does. -/
  body : Block
  /-- Where it stands. -/
  span : Span

/-- **Statements in braces.** -/
structure Block where
  /-- The statements. -/
  body : List Statement
  /-- Where they stand, braces included. -/
  span : Span

/-- **A declaration of variables.** -/
structure VariableDeclaration where
  /-- The word that opens it. -/
  kind : VarKind
  /-- What it binds. -/
  declarators : List Declarator
  /-- Where it stands. -/
  span : Span

/-- **One binding of a declaration.** -/
inductive Declarator where
  /-- A name, perhaps with its first value. -/
  | binding (id : Identifier) (init? : Option Expression) (span : Span)
  /-- Text that could not be read. -/
  | error (node : ErrorNode)

/-- **One clause of a switch.** -/
structure SwitchCase where
  /-- The value it is for; none for the default clause. -/
  test? : Option Expression
  /-- The statements up to the next clause. -/
  consequent : List Statement
  /-- Where it stands. -/
  span : Span

/-- **What a counting loop does first.** -/
inductive ForInit where
  /-- It declares variables. -/
  | declaration (d : VariableDeclaration)
  /-- It evaluates an expression. -/
  | expression (e : Expression)

/-- **What is done about an exception.** -/
structure CatchClause where
  /-- The name for the exception, if it gets one. -/
  param? : Option Identifier
  /-- What is done. -/
  body : Block
  /-- Where it stands. -/
  span : Span

/-- **What a module exports.** -/
inductive Export where
  /-- Everything of another module. -/
  | all (source : Literal)
  /-- A list of names, perhaps of another module. -/
  | named (specifiers : List ExportSpecifier) (source? : Option Literal)
  /-- A function or class declared here. -/
  | declaration (e : Expression)
  /-- Variables declared here. -/
  | bindings (d : VariableDeclaration)
  /-- The default. -/
  | default (e : Expression)

/-- **A statement.** -/
inductive Statement where
  /-- An expression for its effect. -/
  | expression (e : Expression) (span : Span)
  /-- A declaration of variables. -/
  | declaration (d : VariableDeclaration)
  /-- A condition. -/
  | conditional (test : Expression) (consequent : Statement)
      (alternate? : Option Statement) (span : Span)
  /-- A choice between many clauses. -/
  | switch (discriminant : Expression) (cases : List SwitchCase)
      (span : Span)
  /-- A counting loop. -/
  | forLoop (init? : Option ForInit) (test? update? : Option Expression)
      (body : Statement) (span : Span)
  /-- A loop over the keys of an object. -/
  | forIn (kind? : Option VarKind) (left right : Expression)
      (body : Statement) (span : Span)
  /-- A loop over the values of a collection. -/
  | forOf (kind? : Option VarKind) (left right : Expression)
      (body : Statement) (span : Span)
  /-- A loop with its condition in front. -/
  | whileLoop (test : Expression) (body : Statement) (span : Span)
  /-- A loop with its condition behind. -/
  | doWhile (body : Block) (test : Expression) (span : Span)
  /-- A block with what is done about exceptions. -/
  | tryBlock (block : Block) (handler? : Option CatchClause)
      (finalizer? : Option Block) (span : Span)
  /-- The way out of a loop. -/
  | breakLoop (span : Span)
  /-- The way to a loop's next turn. -/
  | continueLoop (span : Span)
  /-- The way out of a function. -/
  | returnValue (argument? : Option Expression) (span : Span)
  /-- A value handed out by a generator. -/
  | yieldValue (argument? : Option Expression) (span : Span)
  /-- An exception. -/
  | throwValue (argument : Expression) (span : Span)
  /-- A lone terminator. -/
  | empty (span : Span)
  /-- Statements in braces. -/
  | block (b : Block)
  /-- An import. -/
  | importNames (clause? : Option ImportClause) (source : Literal) (span : Span)
  /-- An export. -/
  | exportNames (e : Export) (span : Span)
  /-- Text that could not be read. -/
  | error (node : ErrorNode)

end

/-! ## The whole script -/

/-- **The two kinds of comment.** -/
inductive CommentKind where
  /-- To the end of the line. -/
  | line
  /-- To the closing mark. -/
  | block
deriving Repr, DecidableEq

/-- **A comment**, kept beside the tree and not in it. -/
structure Comment where
  /-- Its kind. -/
  kind : CommentKind
  /-- The comment with its marks. -/
  text : String
  /-- Where it stands. -/
  span : Span
deriving Repr, DecidableEq

/-- **A script.** -/
structure Program where
  /-- Its statements. -/
  body : List Statement
  /-- Its comments, in the order of the text. -/
  comments : List Comment
  /-- The whole text. -/
  span : Span

/-! ## Where things stand -/

/-- Where the expression stands. -/
def Expression.span : Expression → Span
  | identifier id => id.span
  | literal l => l.span
  | function f | generator f => f.span
  | classDef c => c.span
  | error node => node.span
  | receiver span | super span | object _ span | array _ span
  | arrow _ _ _ span | call _ _ span | newObject _ span | await _ span
  | member _ _ span | subscript _ _ span | assignment _ _ span
  | compoundAssignment _ _ _ span | conditional _ _ _ span
  | binary _ _ _ span | unary _ _ span | update _ _ _ span
  | sequence _ _ span | parenthesized _ span => span

/-- Where the member stands. -/
def ObjectMember.span : ObjectMember → Span
  | pair _ _ span => span
  | method m => m.span
  | error node => node.span

/-- Where the binding stands. -/
def Declarator.span : Declarator → Span
  | binding _ _ span => span
  | error node => node.span

/-- Where the statement stands. -/
def Statement.span : Statement → Span
  | declaration d => d.span
  | block b => b.span
  | error node => node.span
  | expression _ span | conditional _ _ _ span | switch _ _ span
  | forLoop _ _ _ _ span | forIn _ _ _ _ span | forOf _ _ _ _ span
  | whileLoop _ _ span | doWhile _ _ span | tryBlock _ _ _ span
  | breakLoop span | continueLoop span | returnValue _ span | yieldValue _ span
  | throwValue _ span | empty span | importNames _ _ span
  | exportNames _ span => span

/-! ## Questions the grammar asks -/

/-- Whether the expression may stand to the left of an assignment. -/
def Expression.isAssignmentTarget : Expression → Bool
  | identifier _ | member .. | subscript .. => true
  | _ => false

/-- **Whether the expression reads like a declaration**: functions and
classes end with a brace and need no terminator. -/
def Expression.isDeclarationLike : Expression → Bool
  | function _ | generator _ | classDef _ => true
  | _ => false

/-- Whether the expression is text that could not be read. -/
def Expression.isError : Expression → Bool
  | error _ => true
  | _ => false

end ScriptTree
