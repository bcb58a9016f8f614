import ScriptTree.Token.Basic

/-!
# Why a construct could not be read

A `ParseError` is the cause for which a production gives up. It becomes a
diagnostic only where somebody deals with it; the same cause may be
mended on the spot or cost a whole statement.
-/

namespace ScriptTree

/-- **A mismatch between the tokens and the grammar.** -/
inductive ParseError where
  /-- Another token than the one the grammar asks for. `isLexical` says
  that the token was already reported as faulty by itself. -/
  | unexpectedToken (expected found : String) (span : Span)
      (isLexical : Bool)
  /-- The text ends inside a construct. -/
  | unexpectedEnd (expected : String) (span : Span)
  /-- An assignment to something that is no variable and no part of an
  object. -/
  | invalidAssignmentTarget (span : Span)
  /-- A deletion of something that is no part of an object. -/
  | invalidDeleteTarget (span : Span)
  /-- Constructs nest deeper than allowed. -/
  | tooDeep (limit : Nat) (span : Span)
deriving Repr, DecidableEq

namespace ParseError

/-- The message for a reader. -/
def message : ParseError → String
  | unexpectedToken expected found _ _ =>
    "expected " ++ expected ++ ", found " ++ found
  | unexpectedEnd expected _ =>
    "expected " ++ expected ++ ", found end of input"
  | invalidAssignmentTarget _ => "invalid assignment target"
  | invalidDeleteTarget _ =>
    "'delete' operand must be a member or subscript expression"
  | tooDeep limit _ => "nesting exceeds " ++ toString limit ++ " levels"

/-- The name of the cause in a record. -/
def label : ParseError → String
  | unexpectedToken .. => "UnexpectedToken"
  | unexpectedEnd .. => "UnexpectedEof"
  | invalidAssignmentTarget _ => "InvalidAssignmentTarget"
  | invalidDeleteTarget _ => "InvalidDeleteTarget"
  | tooDeep .. => "TooDeep"

/-- The range at fault. -/
def span : ParseError → Span
  | unexpectedToken _ _ span _ | unexpectedEnd _ span
  | invalidAssignmentTarget span | invalidDeleteTarget span
  | tooDeep _ span => span

/-- Whether the fault lies in a token that has been reported already. -/
def isLexical : ParseError → Bool
  | unexpectedToken _ _ _ isLexical => isLexical
  | _ => false

/-- Whether the cause is the nesting limit. It is never mended on the
spot, since the construct around it would only run into it again. -/
def isTooDeep : ParseError → Bool
  | tooDeep .. => true
  | _ => false

/-- **The error for a token the grammar has no use for.** -/
def ofToken (expected : String) (token : Token) : ParseError :=
  if token.isEof then unexpectedEnd expected token.span
  else
    unexpectedToken expected token.describe token.span token.error.isSome

end ParseError

end ScriptTree
