import ScriptTree.Parse.State

/-!
# Productions and actions

A `Parse` is a production of the grammar: it may fail, and what it had
found until then stays found. An `Action` never fails; statement lists,
terminators and the reporting of problems are actions, and their type
says that nothing wrong in a script can make them give up.

Below are the actions every production is made of: looking at the current
token, reading it, and asking for one.
-/

namespace ScriptTree

/-- **A step of a parse that never fails.** -/
abbrev Action (α : Type) := ReaderT Context (StateM State) α

/-- **A production of the grammar.** The state survives a failure. -/
abbrev Parse (α : Type) := ReaderT Context (ExceptT ParseError (StateM State)) α

/-- An action is a production that never fails. -/
instance : MonadLift (ReaderT Context (StateM State))
    (ReaderT Context (ExceptT ParseError (StateM State))) where
  monadLift action := fun ctx => ExceptT.lift (action ctx)

namespace Action

/-- **A production as an action**, which hands over the failure. -/
def attempt {α : Type} (production : Parse α) :
    Action (Except ParseError α) :=
  fun ctx => (production ctx).run

/-- The token to be read next. -/
def current : Action Token := return (← get).current

/-- The token after it. -/
def peek : Action Token := return (← get).scanner.peek

/-- Where the current token begins. -/
def here : Action Nat := return (← get).current.span.start

/-- **Reads the current token.** -/
def advance : Action Token := do
  let token ← current
  let ctx ← read
  modify (·.bump ctx)
  return token

/-- Whether the current token is a given mark. -/
def atPunctuator (p : Punctuator) : Action Bool :=
  return (← current).isPunctuator p

/-- Whether the current token is a given reserved word. -/
def atKeyword (k : Keyword) : Action Bool :=
  return (← current).isKeyword k

/-- Whether the current token is a given name. -/
def atWord (word : String) : Action Bool :=
  return (← current).isWord word

/-- Whether the current token is of a given kind. -/
def atKind (kind : TokenKind) : Action Bool :=
  return (← current).kind = kind

/-- Whether a line break that matters stands before the current token. -/
def newlineBefore : Action Bool := return (← get).newlineBefore

/-- Whether the current token closes the innermost statement list. -/
def atListEnd : Action Bool :=
  return (← get).atListEnd (← read)

/-- Reads a given mark if it comes next, and says whether it did. -/
def eat (p : Punctuator) : Action Bool := do
  if ← atPunctuator p then
    discard advance
    return true
  else
    return false

/-- The span from an offset to the end of the last token read. -/
def spanFrom (start : Nat) : Action Span :=
  return (← get).spanFrom start

/-- Takes down a problem. -/
def report (kind : DiagnosticKind) (severity : Severity)
    (message : String) (span : Span) : Action Unit := do
  let ctx ← read
  modify (·.report ctx kind severity message span)

/-- Takes down an error of the grammar. -/
def reportError (kind : DiagnosticKind) (error : ParseError) :
    Action Unit := do
  let ctx ← read
  modify (·.reportError ctx kind error)

/-- Takes down a decision. -/
def record (event : Event) : Action Unit :=
  modify (fun s => { s with events := s.events.push event })

/-- The text of a span as an error node. -/
def errorNode (span : Span) : Action ErrorNode := do
  return ⟨String.ofList (span.slice (← read).source), span⟩

end Action

namespace Parse

open ScriptTree.Action

/-- Fails because of the current token. -/
def unexpected {α : Type} (expected : String) : Parse α := do
  throw (.ofToken expected (← current))

/-- A spelling as messages show it. -/
def inQuotes (spelling : String) : String := "'" ++ spelling ++ "'"

/-- Reads a given mark. -/
def expectPunctuator (p : Punctuator) : Parse Token := do
  if ← atPunctuator p then advance else unexpected (inQuotes p.spelling)

/-- Reads a given reserved word. -/
def expectKeyword (k : Keyword) : Parse Token := do
  if ← atKeyword k then advance else unexpected (inQuotes k.spelling)

/-- Reads a given name. -/
def expectWord (word : String) : Parse Token := do
  if ← atWord word then advance else unexpected (inQuotes word)

/-- A token as a name. -/
def identifierOf (token : Token) : Identifier := ⟨token.text, token.span⟩

/-- **Reads a name** where one is bound or used. -/
def identifier : Parse Identifier := do
  if ← atKind .identifier then return identifierOf (← advance)
  else unexpected "identifier"

/-- Whether a token may name a property: reserved words may. -/
def namesProperty (token : Token) : Bool :=
  match token.kind with
  | .identifier | .keyword _ => true
  | _ => false

/-- **Reads the name of a property.** -/
def propertyName : Parse Identifier := do
  if namesProperty (← current) then return identifierOf (← advance)
  else unexpected "property name"

/-- Reads the current token as a literal. -/
def literal (kind : LiteralKind) : Parse Literal := do
  let token ← advance
  return ⟨kind, token.text, token.span⟩

/-- Reads the name of a module, which is a string. -/
def moduleName : Parse Literal := do
  if ← atKind .string then literal .string
  else unexpected "module string"

/-- Fails because constructs nest too deep. -/
def tooDeep {α : Type} : Parse α := do
  throw (.tooDeep (← read).options.maxNestingDepth (← current).span)

/-- **A production that counts as a level** of the grammar. The level is
left however the production ends. -/
def guarded {α : Type} (production : Parse α) : Parse α := do
  modify State.enter
  try production finally modify State.leave

end Parse

end ScriptTree
