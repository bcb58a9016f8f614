import ScriptTree.Token.Basic

/-!
# Operator tables

How operators bind is data. An `OperatorTable` lists operators with a
binding level, a grouping and a fixity, and a caller may hand the parser
a table of their own; nothing else in the library knows a level by heart.

The same sign may be several operators: `-` before an operand and `-`
between two are different entries. An `Operator` is therefore a sign
*with* the place it is looked up for. The fixity inside an entry says how
the parser is to treat the operator once it is found, and a table may
disagree with itself about the two.
-/

namespace ScriptTree

/-- **How tightly an operator binds**: the higher the level, the
tighter. Levels run from -128 to 127. -/
structure Precedence where
  /-- The level. -/
  level : Int
deriving Repr, DecidableEq

namespace Precedence

/-- The comma between expressions. -/
def comma : Precedence := ⟨-1⟩
/-- Assignments. -/
def assignment : Precedence := ⟨0⟩
/-- The choice between two expressions. -/
def choice : Precedence := ⟨1⟩
/-- Logical or, and the bitwise operators on its level. -/
def disjunction : Precedence := ⟨2⟩
/-- Logical and, and the bitwise operator on its level. -/
def conjunction : Precedence := ⟨3⟩
/-- Sums. -/
def additive : Precedence := ⟨4⟩
/-- Comparisons and tests. -/
def relational : Precedence := ⟨5⟩
/-- Products and shifts. -/
def multiplicative : Precedence := ⟨6⟩
/-- Operators that are words before their operand. -/
def wordOperator : Precedence := ⟨7⟩
/-- Negations of truth values and bits. -/
def negation : Precedence := ⟨8⟩
/-- Signs before a number. -/
def sign : Precedence := ⟨9⟩
/-- Increments and decrements. -/
def increment : Precedence := ⟨10⟩
/-- The making of an object. -/
def construction : Precedence := ⟨11⟩
/-- Calls. -/
def call : Precedence := ⟨12⟩
/-- Accesses to a member. -/
def member : Precedence := ⟨13⟩

/-- The loosest level any operator of the standard table has. -/
def lowest : Precedence := comma

instance : LT Precedence := ⟨fun a b => a.level < b.level⟩

instance (a b : Precedence) : Decidable (a < b) :=
  inferInstanceAs (Decidable (a.level < b.level))

/-- **The next tighter level.** Nothing is tighter than level 127, which
is its own successor. -/
def tighter (p : Precedence) : Precedence := ⟨min 127 (p.level + 1)⟩

end Precedence

/-- **How repeated applications of an operator group.** -/
inductive Associativity where
  /-- The first application is the inner one. -/
  | left
  /-- The last application is the inner one. -/
  | right
deriving Repr, DecidableEq

/-- The name of the grouping in a record. -/
def Associativity.label : Associativity → String
  | left => "Left"
  | right => "Right"

/-- **Where an operator stands.** -/
inductive Fixity where
  /-- Before its operand. -/
  | before
  /-- Between its operands. -/
  | between
  /-- After its operand. -/
  | after
deriving Repr, DecidableEq

/-- The name of the place in a record. -/
def Fixity.label : Fixity → String
  | before => "Prefix"
  | between => "Infix"
  | after => "Postfix"

/-- **How an operator binds.** -/
structure OperatorInfo where
  /-- Its level. -/
  precedence : Precedence
  /-- Its grouping. -/
  associativity : Associativity
  /-- How the parser treats it. -/
  fixity : Fixity
deriving Repr, DecidableEq

/-- **The loosest level of a right operand.** To the right of an operator
that groups to the left, an operator of the same level would have to be
the outer one, so the operand must bind more tightly. -/
def OperatorInfo.rightOperand (info : OperatorInfo) : Precedence :=
  match info.associativity with
  | .left => info.precedence.tighter
  | .right => info.precedence

/-- **A sign with the place it is looked up for.** -/
inductive Operator where
  /-- A mark. -/
  | punctuator (p : Punctuator) (fixity : Fixity)
  /-- A reserved word. -/
  | keyword (k : Keyword) (fixity : Fixity)
deriving Repr, DecidableEq

/-- The operator a token of the given kind would be in a place. Only
marks and reserved words are ever operators. -/
def Operator.ofKind? (kind : TokenKind) (fixity : Fixity) :
    Option Operator :=
  match kind with
  | .punctuator p => some (.punctuator p fixity)
  | .keyword k => some (.keyword k fixity)
  | _ => none

/-- **The operators of a language.** -/
structure OperatorTable where
  /-- The operators with their binding, in an order that matters only
  where one of them is listed twice. -/
  entries : List (Operator × OperatorInfo)
deriving Repr, DecidableEq

namespace OperatorTable

/-- **The entry of an operator**, the first one if there are several. -/
def lookup? (table : OperatorTable) (operator : Operator) :
    Option OperatorInfo :=
  (table.entries.find? (fun e => e.1 = operator)).map Prod.snd

/-- The entry of a token's kind in a place. -/
def find? (table : OperatorTable) (kind : TokenKind) (fixity : Fixity) :
    Option OperatorInfo :=
  (Operator.ofKind? kind fixity).bind table.lookup?

/-- **What a token means where an operand is expected.** -/
def beforeOperand? (table : OperatorTable) (kind : TokenKind) :
    Option OperatorInfo :=
  table.find? kind .before

/-- **What a token means where an operand has just ended**: an operator
with another operand to come, or else one that ends there. -/
def afterOperand? (table : OperatorTable) (kind : TokenKind) :
    Option OperatorInfo :=
  (table.find? kind .between).or (table.find? kind .after)

end OperatorTable

end ScriptTree
