import ScriptTree.Parse.Callable

/-!
# Operands

What may stand where an operand is expected: names, literals, brackets,
functions and classes. Two of them take a look ahead. A name or a
parenthesis may open an arrow function, which only the arrow shows; and
`async` is a plain name unless a function of some kind follows.
-/

namespace ScriptTree.Parse

open ScriptTree.Action

variable (g : Grammar)

/-! ## Literals -/

/-- The two parts of a regular expression: what lies between the slashes,
and what lies behind the last of them. One without an end has no second
slash. -/
def regexParts (text : List Char) : List Char × List Char :=
  let body :=
    match text with
    | '/' :: cs => cs
    | cs => cs
  let flags := (body.reverse.takeWhile (· ≠ '/')).reverse
  if flags.length = body.length then (body, [])
  else (body.take (body.length - flags.length - 1), flags)

/-- Reads the current token, a regular expression, as a literal. -/
def regexLiteral : Parse Literal := do
  let token ← current
  let (pattern, flags) := regexParts token.text.toList
  literal (.regex (String.ofList pattern) (String.ofList flags))

/-- **A slash where an operand is expected** opens a regular expression,
although the scanner took it for an operator. -/
def rescannedRegex : Parse Literal := do
  let ctx ← read
  modify (·.rescanRegex ctx)
  regexLiteral

/-! ## Arrow functions -/

/-- **What follows the parameters of an arrow function**, whose span
begins at the given offset. -/
def arrowFunction (isAsync : Bool) (params : List Identifier)
    (start : Nat) : Parse Expression := do
  discard (expectPunctuator .arrow)
  let body ←
    if ← atPunctuator .lBrace then ArrowBody.block <$> g.block
    else ArrowBody.expression <$> assignment g
  return .arrow isAsync params body (← spanFrom start)

/-- **An asynchronous function of any kind**, where one follows the
current token `async`; otherwise nothing is read. -/
def asyncFunction? : Parse (Option Expression) := do
  let s ← get
  let start := s.current.span.start
  let next := s.scanner.peek
  if next.isKeyword .kwFunction then
    discard advance
    return some (← functionExpression g true start)
  else if next.kind = .identifier
      && s.scanner.peekSecond.isPunctuator .arrow then
    discard advance
    let param ← identifier
    return some (← arrowFunction g true [param] start)
  else if next.isPunctuator .lParen
      && s.scanner.nextSignificant.scanner.parameterListFollows then
    discard advance
    let params ← parameterList g
    return some (← arrowFunction g true params start)
  else
    return none

/-- **A name**, or the arrow function whose only parameter it is. -/
def nameOrArrow : Parse Expression := do
  let token ← current
  if (← peek).isPunctuator .arrow then
    let param ← identifier
    arrowFunction g false [param] token.span.start
  else
    return .identifier (← identifier)

/-- What a name begins where an operand is expected. -/
def nameOperand : Parse Expression := do
  if ← atWord "async" then
    match ← asyncFunction? g with
    | some e => return e
    | none => nameOrArrow g
  else
    nameOrArrow g

/-! ## Brackets -/

/-- **An expression in parentheses**, or an arrow function whose
parameters they hold. -/
def parenthesizedOrArrow : Parse Expression := do
  let s ← get
  let start := s.current.span.start
  if s.scanner.parameterListFollows then
    let params ← parameterList g
    arrowFunction g false params start
  else
    let e ← condition g
    return .parenthesized e (← spanFrom start)

/-- The elements of an array. -/
def arrayElements : Parse (List Expression) :=
  separated .listElement .rBracket (assignment g)

/-- **An array.** -/
def arrayLiteral : Parse Expression := do
  let opening ← expectPunctuator .lBracket
  let elements ← g.elements
  discard (expectPunctuator .rBracket)
  return .array elements (← spanFrom opening.span.start)

/-- The value behind a key, and the pair of the two. -/
def pairWith (key : PropertyKey) (start : Nat) : Parse ObjectMember := do
  discard (expectPunctuator .colon)
  let value ← assignment g
  return .pair key value ⟨start, value.span.stop⟩

/-- **A member of an object**: a method, or a key with its value. A name
is a key only before a colon. -/
def objectMember : Parse ObjectMember := do
  let token ← current
  let start := token.span.start
  match token.kind with
  | .string => pairWith g (.string (← literal .string)) start
  | .number => pairWith g (.number (← literal .number)) start
  | .punctuator .star => return .method (← method g false start)
  | .identifier | .keyword _ =>
    if (← peek).isPunctuator .colon then
      pairWith g (.identifier (← propertyName)) start
    else
      return .method (← method g false start)
  | _ => unexpected "property name"

/-- The members of an object. -/
def objectMembers : Parse (List ObjectMember) :=
  separated .listElement .rBrace (objectMember g)

/-- **An object.** -/
def objectLiteral : Parse Expression := do
  let opening ← expectPunctuator .lBrace
  let members ← g.members
  discard (expectPunctuator .rBrace)
  return .object members (← spanFrom opening.span.start)

/-! ## Any operand -/

/-- Whether a call or an access begins with the token. -/
def opensAccess (token : Token) : Bool :=
  token.isPunctuator .lParen || token.isPunctuator .dot
    || token.isPunctuator .lBracket

/-- The superclass's view of an object, which must be called or
accessed. -/
def superOperand : Parse Expression := do
  let token ← advance
  if opensAccess (← current) then
    return .super token.span
  else
    unexpected "'(' or '.' after 'super'"

/-- What a reserved word begins where an operand is expected. -/
def keywordOperand (k : Keyword) : Parse Expression := do
  match k with
  | .kwThis => return .receiver (← advance).span
  | .kwSuper => superOperand
  | .kwTrue => return .literal (← literal (.boolean true))
  | .kwFalse => return .literal (← literal (.boolean false))
  | .kwNull => return .literal (← literal .null)
  | .kwUndefined => return .literal (← literal .undefined)
  | .kwFunction => functionExpression g false (← here)
  | .kwClass => return .classDef (← classDefinition g false)
  | _ => unexpected "expression"

/-- **An operand without operators.** -/
def primary : Parse Expression := do
  match (← current).kind with
  | .identifier => nameOperand g
  | .number => return .literal (← literal .number)
  | .string => return .literal (← literal .string)
  | .template => return .literal (← literal .template)
  | .regex => return .literal (← regexLiteral)
  | .punctuator .slash | .punctuator .slashEq =>
    return .literal (← rescannedRegex)
  | .punctuator .lParen => parenthesizedOrArrow g
  | .punctuator .lBracket => arrayLiteral g
  | .punctuator .lBrace => objectLiteral g
  | .keyword k => keywordOperand g k
  | _ => unexpected "expression"

end ScriptTree.Parse
