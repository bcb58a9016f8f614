import ScriptTree.Parse.Action

/-!
# Going on after an error

Errors are dealt with in two ways. At a `TolerantPoint` the tokens up to
the point's delimiter are passed over and become an error node in the
place of what was expected there. Everywhere else the error goes up to
the statement list, which passes over the rest of the statement.

Both take at least one token, or give the error on: text is never passed
over without a trace, and nothing is tried twice at the same place.
-/

namespace ScriptTree

/-- **Nodes with an alternative for text that could not be read.** -/
class Mendable (α : Type) where
  /-- The alternative. -/
  ofError : ErrorNode → α
  /-- Whether a node is that alternative. -/
  isError : α → Bool

instance : Mendable Expression where
  ofError := .error
  isError := Expression.isError

instance : Mendable ObjectMember where
  ofError := .error
  isError
    | .error _ => true
    | _ => false

instance : Mendable Declarator where
  ofError := .error
  isError
    | .error _ => true
    | _ => false

/-- The bracket depth behind a token. -/
def depthAfter (token : Token) (depth : Nat) : Nat :=
  if token.kind.isOpener then depth + 1
  else if token.kind.isCloser then depth - 1
  else depth

/-- Whether a token can only begin a statement. -/
def startsStatement (token : Token) : Bool :=
  match token.kind with
  | .keyword k =>
    match k with
    | .kwVar | .kwLet | .kwConst | .kwIf | .kwFor | .kwWhile | .kwDo
    | .kwSwitch | .kwTry | .kwReturn | .kwBreak | .kwContinue | .kwThrow
    | .kwYield | .kwImport | .kwExport => true
    | _ => false
  | _ => false

namespace Parse

open ScriptTree.Action

/-! ## At a tolerant point -/

/-- **Passes over tokens to the delimiter of a point**, and says whether
any token has been taken since the point was entered. A closing bracket
that closes none of the brackets opened on the way belongs to a construct
further out, and no delimiter counts before something has been taken. -/
def skipTo (point : TolerantPoint) :
    (turns depth : Nat) → (taken : Bool) → Action Bool
  | 0, _, taken => return taken
  | turns + 1, depth, taken => do
    let s ← get
    let token := s.current
    let newline := s.newlineBefore && (← read).newlinesMatter
    if token.isEof then
      return taken
    else if depth = 0 && (token.kind.isCloser
        || (taken && point.syncsAt token newline)) then
      return taken
    else
      discard advance
      skipTo point turns (depthAfter token depth) true

/-- **Mends an error at a point** that was entered at an offset. The error
stands if errors are not tolerated, if the parse has ended, if it is the
nesting limit, or if there is nothing to take. -/
def mend (point : TolerantPoint) (start : Nat) (error : ParseError) :
    Parse ErrorNode := do
  let ctx ← read
  let s ← get
  if !ctx.options.tolerant || s.aborted || error.isTooDeep then
    throw error
  let taken ← skipTo point ctx.turns 0 (s.current.span.start != start)
  if !taken then
    throw error
  let span ← spanFrom start
  record (.recovered point span error)
  reportError .recoverable error
  errorNode span

/-- **A production at a tolerant point**: its failure is mended. -/
def tolerant {α : Type} [Mendable α] (point : TolerantPoint)
    (production : Parse α) : Parse α := do
  let start ← here
  try production
  catch error => return Mendable.ofError (← mend point start error)

/-- **An item of a list without a separator behind it**: what follows up
to the next separator becomes an item of its own. -/
def missingSeparator {α : Type} [Mendable α] (point : TolerantPoint)
    (expected : String) : Parse α := do
  let token ← current
  let node ← mend point token.span.start (.ofToken expected token)
  return Mendable.ofError node

/-- The loop of `separated`, with the items so far, the last of them
first. -/
def separatedFrom {α : Type} [Mendable α] (point : TolerantPoint)
    (closer : Punctuator) (item : Parse α) :
    (turns : Nat) → List α → Parse (List α)
  | 0, found => return found.reverse
  | turns + 1, found => do
    if ← atPunctuator closer then
      return found.reverse
    else
      let x ← tolerant point item
      if ← eat .comma then
        separatedFrom point closer item turns (x :: found)
      else if ← atPunctuator closer then
        separatedFrom point closer item turns (x :: found)
      else if Mendable.isError x then
        discard (eat .comma)
        separatedFrom point closer item turns (x :: found)
      else
        let skipped ← missingSeparator point
          (inQuotes "," ++ " or " ++ inQuotes closer.spelling)
        discard (eat .comma)
        separatedFrom point closer item turns (skipped :: x :: found)

/-- **Items with commas between them**, up to a closing bracket, which is
left to be read. The last item may have a comma too. -/
def separated {α : Type} [Mendable α] (point : TolerantPoint)
    (closer : Punctuator) (item : Parse α) : Parse (List α) := do
  separatedFrom point closer item (← read).turns []

/-! ## Anywhere else -/

/-- Whether a token ends the statement that is being given up: a new line,
a word that begins a statement, the brace of the list, or the next clause
of a switch. -/
def endsStatement (listEnd : ListEnd) (newlineBefore : Bool)
    (token : Token) : Bool :=
  newlineBefore || startsStatement token || token.isPunctuator .rBrace
    || (listEnd = .switchCase
      && (token.isKeyword .kwCase || token.isKeyword .kwDefault))

/-- **Passes over the rest of a statement.** A terminator outside of all
brackets opened on the way is the last token of it. -/
def skipStatement : (turns depth : Nat) → (taken : Bool) → Action Unit
  | 0, _, _ => return
  | turns + 1, depth, taken => do
    let s ← get
    let ctx ← read
    let token := s.current
    if s.aborted || token.isEof then
      return
    else if depth = 0 && taken
        && endsStatement ctx.listEnd s.newlineBefore token then
      return
    else
      discard advance
      let depth := depthAfter token depth
      if depth = 0 && token.isPunctuator .semicolon then
        return
      else
        skipStatement turns depth true

/-- **Gives up the statement that began at an offset.** What was taken of
it becomes an error statement, if anything was. -/
def abandon (start : Nat) (error : ParseError) :
    Action (Option Statement) := do
  reportError .structural error
  record (.abandoned start error)
  let ctx ← read
  skipStatement ctx.turns 0 (start < (← here))
  let span ← spanFrom start
  if span.isEmpty then
    return none
  else
    return some (.error (← errorNode span))

end Parse

end ScriptTree
