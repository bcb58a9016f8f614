/-!
# Operators in a tree

Once a text has been read, an operator is no longer a token: `-` before
an operand and `-` between two are different things. Each type below
holds the operators of one kind of node, with the sign it is written
with.
-/

namespace ScriptTree

/-- **An operator between two operands.** -/
inductive BinaryOperator where
  | and | or | add | sub | mul | div | mod
  | bitAnd | bitOr | bitXor | leftShift | rightShift
  | lt | ltEq | gt | gtEq | eq | strictEq | notEq | strictNotEq
  | instanceOf | isIn
deriving Repr, DecidableEq

/-- **The families of binary operators**, as tools group them. -/
inductive BinaryCategory where
  /-- Logical and, logical or. -/
  | boolean
  /-- Sums, products and remainders. -/
  | math
  /-- Bits and shifts. -/
  | bitwise
  /-- Comparisons. -/
  | relational
  /-- Tests of what an object is or has. -/
  | type
deriving Repr, DecidableEq

namespace BinaryOperator

/-- The sign. -/
def spelling : BinaryOperator → String
  | and => "&&"
  | or => "||"
  | add => "+"
  | sub => "-"
  | mul => "*"
  | div => "/"
  | mod => "%"
  | bitAnd => "&"
  | bitOr => "|"
  | bitXor => "^"
  | leftShift => "<<"
  | rightShift => ">>"
  | lt => "<"
  | ltEq => "<="
  | gt => ">"
  | gtEq => ">="
  | eq => "=="
  | strictEq => "==="
  | notEq => "!="
  | strictNotEq => "!=="
  | instanceOf => "instanceof"
  | isIn => "in"

/-- The family. -/
def category : BinaryOperator → BinaryCategory
  | and | or => .boolean
  | add | sub | mul | div | mod => .math
  | bitAnd | bitOr | bitXor | leftShift | rightShift => .bitwise
  | instanceOf | isIn => .type
  | lt | ltEq | gt | gtEq | eq | strictEq | notEq | strictNotEq => .relational

end BinaryOperator

/-- **An operator before its operand.** -/
inductive UnaryOperator where
  | not | bitwiseNot | minus | plus | delete | void | typeOf
deriving Repr, DecidableEq

/-- The sign or word. -/
def UnaryOperator.spelling : UnaryOperator → String
  | not => "!"
  | bitwiseNot => "~"
  | minus => "-"
  | plus => "+"
  | delete => "delete"
  | void => "void"
  | typeOf => "typeof"

/-- **An increment or decrement**, before or after its operand. -/
inductive UpdateOperator where
  | increment | decrement
deriving Repr, DecidableEq

/-- The sign. -/
def UpdateOperator.spelling : UpdateOperator → String
  | increment => "++"
  | decrement => "--"

/-- **An assignment that computes with the old value.** -/
inductive CompoundOperator where
  | add | sub | mul | div
deriving Repr, DecidableEq

/-- The sign. -/
def CompoundOperator.spelling : CompoundOperator → String
  | add => "+="
  | sub => "-="
  | mul => "*="
  | div => "/="

end ScriptTree
