import ScriptTree.Diagnostic
import ScriptTree.Token.Significant
import ScriptTree.Operator.Table
import ScriptTree.Tree.Basic
import ScriptTree.Parse.Options
import ScriptTree.Parse.Event

/-!
# What a parse knows and what it keeps

A production reads a `Context` and changes a `State`.

The context says where in the script the production stands: whether a
line break may end what is being read, whether `in` is an operator here,
what closes the statement list around it. It is handed down and never
handed back, so a production cannot disturb the ones that follow it,
whether it succeeds or not.

The state is the place in the text – one token ahead – and what has been
found on the way there.
-/

namespace ScriptTree

/-- **What closes a statement list.** -/
inductive ListEnd where
  /-- The end of the text. -/
  | eof
  /-- A closing brace. -/
  | brace
  /-- The next clause of a switch, or the brace that closes it. -/
  | switchCase
deriving Repr, DecidableEq

/-- **Where in a script a production stands.** -/
structure Context where
  /-- The whole text. -/
  source : List Char
  /-- More than the number of bytes in the text. No loop over its tokens
  takes so many turns. -/
  turns : Nat
  /-- How the script is to be parsed. -/
  options : Options
  /-- The operators of the language. -/
  table : OperatorTable
  /-- Whether a line break may end what is being read. -/
  newlinesMatter : Bool
  /-- Whether `in` is an operator between two operands. -/
  allowIn : Bool
  /-- What closes the innermost statement list. -/
  listEnd : ListEnd

namespace Context

/-- The context of a whole script. -/
def ofSource (source : List Char) (options : Options)
    (table : OperatorTable) : Context where
  source := source
  turns := byteLength source + 1
  options := options
  table := table
  newlinesMatter := true
  allowIn := true
  listEnd := .eof

/-- The context between brackets: line breaks end nothing there, and `in`
is an operator even where it was not outside. -/
def inBrackets (ctx : Context) : Context :=
  { ctx with newlinesMatter := false, allowIn := true }

/-- The context in which `in` is no operator. -/
def withoutIn (ctx : Context) : Context := { ctx with allowIn := false }

/-- The context of a statement list, whatever surrounds it. -/
def inList (ctx : Context) (listEnd : ListEnd) : Context :=
  { ctx with newlinesMatter := true, allowIn := true, listEnd := listEnd }

end Context

/-- **The place of a parse and what it has found.** -/
structure State where
  /-- The scanner behind the current token. -/
  scanner : Scanner
  /-- The token to be read next. -/
  current : Token
  /-- Whether a line break that matters stands before the current
  token. -/
  newlineBefore : Bool
  /-- Where the last token that was read ends. -/
  consumedTo : Nat
  /-- The tokens that were current before, the last of them first. No
  production looks at them (`Parse.Overlooks`); they are kept to tell how a
  parse has come to its place. -/
  taken : List Token
  /-- The problems found. -/
  diagnostics : Array Diagnostic
  /-- The comments found. -/
  comments : Array Comment
  /-- The decisions taken. -/
  events : Array Event
  /-- Whether an error has ended the parse. -/
  aborted : Bool
  /-- How many levels of the grammar have been entered and not left. There
  is no answer any more once one has been left that was not entered. -/
  depth : Option Nat

namespace State

/-- **Takes down a problem.** Nothing is taken down any more once the
parse has ended or enough problems are known. Where errors are not
tolerated the first one ends the parse. -/
def report (ctx : Context) (kind : DiagnosticKind) (severity : Severity)
    (message : String) (span : Span) (s : State) : State :=
  if s.aborted || s.diagnostics.size ≥ ctx.options.maxDiagnostics then s
  else
    { s with
      diagnostics := s.diagnostics.push
        { kind := kind
          severity := severity
          message := message
          span := span
          position := positionAt ctx.source span.start }
      aborted := severity = .error && !ctx.options.tolerant }

/-- Takes down an error of the grammar, unless its token has been
reported already. -/
def reportError (ctx : Context) (kind : DiagnosticKind)
    (error : ParseError) (s : State) : State :=
  if error.isLexical then s
  else s.report ctx kind .error error.message error.span

/-- Takes down what is wrong with a token, if anything is. -/
def reportToken (ctx : Context) (token : Token) (s : State) : State :=
  match token.error with
  | some error => s.report ctx .lexical .error error.message token.span
  | none => s

/-- The comment a token is. -/
def commentOf (token : Token) : Comment where
  kind := if token.text.startsWith "//" then .line else .block
  text := token.text
  span := token.span

/-- Passes a comment or line break on the way to the next token. -/
def passExtra (ctx : Context) (s : State) (token : Token) : State :=
  if token.kind = .lineBreak then { s with newlineBefore := true }
  else
    let s := s.reportToken ctx token
    if ctx.options.collectComments then
      { s with comments := s.comments.push (commentOf token) }
    else s

/-- **Moves on to the next token of the grammar.** -/
def bump (ctx : Context) (s : State) : State :=
  let step := s.scanner.nextSignificant
  let s :=
    { s with
      scanner := step.scanner
      consumedTo := s.current.span.stop
      taken := s.current :: s.taken
      newlineBefore := false }
  let s := step.extras.foldl (passExtra ctx) s
  { s.reportToken ctx step.token with current := step.token }

/-- **Reads the current token again as a regular expression.** The state
stays before the token. -/
def rescanRegex (ctx : Context) (s : State) : State :=
  let (token, scanner) := s.scanner.rescanRegex s.current
  { { s with scanner := scanner }.reportToken ctx token with
    current := token }

/-- **Enters a level** of the grammar. -/
def enter (s : State) : State :=
  { s with depth := s.depth.map (· + 1) }

/-- **Leaves a level** of the grammar. -/
def leave (s : State) : State :=
  { s with depth := s.depth.bind fun
      | 0 => none
      | depth + 1 => some depth }

/-- The state before anything has been looked at. -/
def blank (source : List Char) : State where
  scanner := .ofSource source
  current :=
    { kind := .eof
      text := ""
      span := .emptyAt 0
      position := .start
      error := none }
  newlineBefore := false
  consumedTo := 0
  taken := []
  diagnostics := #[]
  comments := #[]
  events := #[]
  aborted := false
  depth := some 0

/-- **The state at the front of a script**, with its first token
current. -/
def initial (ctx : Context) : State := (blank ctx.source).bump ctx

/-- How many times a next token has been looked for. -/
def moves (s : State) : Nat := s.taken.length

/-- Whether the current token closes the innermost statement list. The
end of the text closes them all. -/
def atListEnd (ctx : Context) (s : State) : Bool :=
  s.current.isEof ||
    match ctx.listEnd with
    | .eof => false
    | .brace => s.current.isPunctuator .rBrace
    | .switchCase =>
      s.current.isPunctuator .rBrace || s.current.isKeyword .kwCase
        || s.current.isKeyword .kwDefault

/-- The span from an offset to the end of the last token read. -/
def spanFrom (s : State) (start : Nat) : Span :=
  ⟨start, max s.consumedTo start⟩

end State

end ScriptTree
