import ScriptTree.Parse.Declaration

/-!
# Conditions and loops

The statements that hold other statements. The three kinds of `for` loop
begin alike: only the token behind the first part of the header – `in`,
`of` or a terminator – tells them apart, which is why `in` is no operator
in that part.
-/

namespace ScriptTree.Parse

open ScriptTree.Action

variable (g : Grammar)

/-! ## Conditions -/

/-- The other branch of a condition. It belongs to the nearest condition
without one. -/
def alternative? : Parse (Option Statement) := do
  if ← atKeyword .kwElse then
    discard advance
    return some (← statement g)
  else return none

/-- **A condition with its branches.** -/
def conditionalStatement : Parse Statement := do
  let start := (← advance).span.start
  let test ← condition g
  let consequent ← statement g
  let alternate? ← alternative? g
  return .conditional test consequent alternate? (← spanFrom start)

/-- The value a clause of a switch is for; the default clause is for
none. -/
def caseTest : Parse (Option Expression) := do
  if ← atKeyword .kwCase then
    discard advance
    return some (← expression g)
  else if ← atKeyword .kwDefault then
    discard advance
    return none
  else
    unexpected "'case', 'default' or '\x7d'"

/-- **One clause of a switch.** -/
def switchCase : Parse SwitchCase := do
  let start ← here
  let test? ← caseTest g
  discard (expectPunctuator .colon)
  let consequent ← statementList g .switchCase
  return ⟨test?, consequent, ← spanFrom start⟩

/-- The loop of `switchStatement`, with the clauses so far, the last of
them first. -/
def switchCasesFrom : (turns : Nat) → List SwitchCase →
    Parse (List SwitchCase)
  | 0, found => return found.reverse
  | turns + 1, found => do
    if ← atPunctuator .rBrace then return found.reverse
    else switchCasesFrom turns ((← switchCase g) :: found)

/-- **A choice between clauses.** -/
def switchStatement : Parse Statement := do
  let start := (← advance).span.start
  let discriminant ← condition g
  discard (expectPunctuator .lBrace)
  let cases ← switchCasesFrom g (← read).turns []
  discard (expectPunctuator .rBrace)
  return .switch discriminant cases (← spanFrom start)

/-! ## Loops with a condition -/

/-- **A loop with its condition in front.** -/
def whileStatement : Parse Statement := do
  let start := (← advance).span.start
  let test ← condition g
  let body ← statement g
  return .whileLoop test body (← spanFrom start)

/-- **A loop with its condition behind.** -/
def doStatement : Parse Statement := do
  let start := (← advance).span.start
  let body ← g.block
  discard (expectKeyword .kwWhile)
  let test ← condition g
  terminator false
  return .doWhile body test (← spanFrom start)

/-! ## Loops over a range -/

/-- One part of a header, up to the given mark. -/
def headerPart (closer : Punctuator) : Parse Expression :=
  tolerant .forHeader (expressionBefore g closer)

/-- One part of a header that may be missing. -/
def optionalHeaderPart (closer : Punctuator) :
    Parse (Option Expression) := do
  if ← atPunctuator closer then return none
  else return some (← headerPart g closer)

/-- The first part of a header. -/
def headerInit : Parse (Option ForInit) := do
  let token ← current
  if token.isPunctuator .semicolon then
    return none
  else if (varKind? token.kind).isSome then
    let d ← withReader Context.withoutIn (variableDeclaration g)
    return some (.declaration d)
  else
    let e ← withReader Context.withoutIn
      (tolerant .forHeader (expression g))
    return some (.expression e)

/-- The word of the declaration in the first part of a header. -/
def headerKind? : Option ForInit → Option VarKind
  | some (.declaration d) => some d.kind
  | _ => none

/-- **What a loop over an object or a collection sets**: an expression, or
the only variable of a declaration, which must not have a first value. -/
def loopTarget? : Option ForInit → Option Expression
  | some (.expression e) => some e
  | some (.declaration d) =>
    match d.declarators with
    | [.binding id none _] => some (.identifier id)
    | _ => none
  | none => none

/-- What is behind the first part of a header, in a loop over an object or
a collection. The word that tells so is the current token. -/
def eachHeader (init? : Option ForInit) :
    Parse (Expression × Expression) := do
  match loopTarget? init? with
  | none => unexpected "';'"
  | some left =>
    discard advance
    return (left, ← headerPart g .rParen)

/-- **The header of a `for` loop.** -/
def forHeader : Parse ForHeader := do
  let init? ← headerInit g
  let kind? := headerKind? init?
  if ← atKeyword .kwIn then
    let (left, right) ← eachHeader g init?
    return .overKeys kind? left right
  else if ← atWord "of" then
    let (left, right) ← eachHeader g init?
    return .overValues kind? left right
  else
    discard (expectPunctuator .semicolon)
    let test? ← optionalHeaderPart g .semicolon
    discard (expectPunctuator .semicolon)
    let update? ← optionalHeaderPart g .rParen
    return .counting init? test? update?

/-- The loop with a given header. -/
def loopOf (header : ForHeader) (body : Statement) (span : Span) :
    Statement :=
  match header with
  | .counting init? test? update? => .forLoop init? test? update? body span
  | .overKeys kind? left right => .forIn kind? left right body span
  | .overValues kind? left right => .forOf kind? left right body span

/-- **A `for` loop.** -/
def forStatement : Parse Statement := do
  let start := (← advance).span.start
  discard (expectPunctuator .lParen)
  let header ← g.forHeader
  discard (expectPunctuator .rParen)
  let body ← statement g
  return loopOf header body (← spanFrom start)

end ScriptTree.Parse
