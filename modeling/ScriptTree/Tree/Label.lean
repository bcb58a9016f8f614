import ScriptTree.Tree.Node

/-!
# Names of the kinds of nodes

Tools that report on a tree need a name for each kind of node and for
each operator. The names are the ones a record of the tree uses.
-/

namespace ScriptTree

/-! ## Operators -/

/-- The name of the operator. -/
def BinaryOperator.label : BinaryOperator → String
  | and => "And"
  | or => "Or"
  | add => "Add"
  | sub => "Sub"
  | mul => "Mul"
  | div => "Div"
  | mod => "Mod"
  | bitAnd => "BitAnd"
  | bitOr => "BitOr"
  | bitXor => "BitXor"
  | leftShift => "LeftShift"
  | rightShift => "RightShift"
  | lt => "Lt"
  | ltEq => "LtEq"
  | gt => "Gt"
  | gtEq => "GtEq"
  | eq => "Eq"
  | strictEq => "StrictEq"
  | notEq => "NotEq"
  | strictNotEq => "StrictNotEq"
  | instanceOf => "Instanceof"
  | isIn => "In"

/-- The name of the family. -/
def BinaryCategory.label : BinaryCategory → String
  | boolean => "Boolean"
  | math => "Math"
  | bitwise => "Bitwise"
  | relational => "Relational"
  | type => "Type"

/-- The name of the operator. -/
def UnaryOperator.label : UnaryOperator → String
  | not => "Not"
  | bitwiseNot => "BitwiseNot"
  | minus => "Minus"
  | plus => "Plus"
  | delete => "Delete"
  | void => "Void"
  | typeOf => "Typeof"

/-- The name of the operator. -/
def UpdateOperator.label : UpdateOperator → String
  | increment => "Increment"
  | decrement => "Decrement"

/-- The name of the operator. -/
def CompoundOperator.label : CompoundOperator → String
  | add => "AddAssign"
  | sub => "SubAssign"
  | mul => "MulAssign"
  | div => "DivAssign"

/-! ## Parts of a tree -/

/-- The name of the word. -/
def VarKind.label : VarKind → String
  | varWord => "Var"
  | letWord => "Let"
  | constWord => "Const"

/-- The name of the flavour. -/
def MethodKind.label : MethodKind → String
  | method => "Method"
  | get => "Get"
  | set => "Set"
  | generator => "Generator"

/-- The name of the kind. -/
def CommentKind.label : CommentKind → String
  | line => "Line"
  | block => "Block"

/-- The name of an expression's kind. -/
def Expression.label : Expression → String
  | identifier _ => "Identifier"
  | literal _ => "Literal"
  | receiver _ => "ThisExpression"
  | super _ => "SuperExpression"
  | object .. => "ObjectExpression"
  | array .. => "ArrayExpression"
  | function _ => "FunctionExpression"
  | generator _ => "GeneratorFunctionExpression"
  | arrow .. => "ArrowFunctionExpression"
  | classDef _ => "ClassExpression"
  | call .. => "CallExpression"
  | newObject .. => "NewExpression"
  | await .. => "AwaitExpression"
  | member .. => "MemberExpression"
  | subscript .. => "SubscriptExpression"
  | assignment .. => "AssignmentExpression"
  | compoundAssignment .. => "CompoundAssignmentExpression"
  | conditional .. => "ConditionalExpression"
  | binary .. => "BinaryExpression"
  | unary .. => "UnaryExpression"
  | update .. => "UpdateExpression"
  | sequence .. => "SequenceExpression"
  | parenthesized .. => "ParenthesizedExpression"
  | error _ => "Error"

/-- The name of a statement's kind. -/
def Statement.label : Statement → String
  | expression .. => "ExpressionStatement"
  | declaration _ => "VarDeclaration"
  | conditional .. => "IfStatement"
  | switch .. => "SwitchStatement"
  | forLoop .. => "ForStatement"
  | forIn .. => "ForInStatement"
  | forOf .. => "ForOfStatement"
  | whileLoop .. => "WhileStatement"
  | doWhile .. => "DoStatement"
  | tryBlock .. => "TryStatement"
  | breakLoop _ => "BreakStatement"
  | continueLoop _ => "ContinueStatement"
  | returnValue .. => "ReturnStatement"
  | yieldValue .. => "YieldStatement"
  | throwValue .. => "ThrowStatement"
  | empty _ => "EmptyStatement"
  | block _ => "Block"
  | importNames .. => "ImportStatement"
  | exportNames .. => "ExportStatement"
  | error _ => "Error"

/-- **The name of what a walk stops at.** -/
def Node.label : Node → String
  | program _ => "program"
  | statement _ => "statement"
  | block _ => "block"
  | declaration _ => "var_declaration"
  | expression _ => "expression"
  | function _ => "function"
  | classDef _ => "class"
  | method _ => "method"
  | identifier _ => "identifier"
  | literal _ => "literal"
  | error _ => "error"

end ScriptTree
