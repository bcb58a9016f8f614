import ScriptTree.Parse.Expression

/-!
# Terminators and declarations

A statement ends with a terminator, or with a line break, or – if it is
the last of its list – with nothing at all. `terminator` settles which,
and it never fails: a missing terminator is reported, and the statement
stands.
-/

namespace ScriptTree.Parse

open ScriptTree.Action

variable (g : Grammar)

/-! ## The end of a statement -/

/-- The problem with a missing terminator, in words. -/
def missingTerminatorMessage (token : Token) (error : ParseError) :
    String :=
  if token.isEof then "missing ';' or line break before end of input"
  else error.message

/-- Reports a missing terminator: an error in the middle of a list, and
only a warning at its end. -/
def reportMissingTerminator (atEnd : Bool) : Action Unit := do
  let token ← current
  let error := ParseError.ofToken "';' or line break" token
  if error.isLexical then return
  else
    report .structural (if atEnd then .warning else .error)
      (missingTerminatorMessage token error) error.span

/-- **The end of a statement.** With `mayTrail` the last statement of a
list may do without a terminator, if the options allow it. -/
def terminator (mayTrail : Bool) : Action Unit := do
  if ← eat .semicolon then return
  else if ← newlineBefore then return
  else
    let atEnd ← atListEnd
    if mayTrail && atEnd && (← read).options.allowTrailingStatement then
      return
    else
      reportMissingTerminator atEnd

/-- The end of a function or class, which needs no terminator; one on the
same line still belongs to it. -/
def declarationEnd : Action Unit := do
  if ← newlineBefore then return
  else discard (eat .semicolon)

/-- Whether the statement ends here, so that no operand follows the word
that began it. -/
def atStatementEnd : Action Bool := do
  let s ← get
  return s.current.isPunctuator .semicolon || s.newlineBefore
    || s.atListEnd (← read)

/-! ## Declarations of variables -/

/-- The word that opens a declaration, if a token is one. -/
def varKind? (kind : TokenKind) : Option VarKind :=
  match kind with
  | .keyword .kwVar => some .varWord
  | .keyword .kwLet => some .letWord
  | .keyword .kwConst => some .constWord
  | _ => none

/-- The first value of a variable, if it gets one. -/
def initializer? : Parse (Option Expression) := do
  if ← eat .assign then return some (← assignment g)
  else return none

/-- **One binding.** -/
def binding : Parse Declarator := do
  let id ← identifier
  let init? ← initializer? g
  return .binding id init? (← spanFrom id.span.start)

/-- Whether another binding follows: behind a comma, or where a binding
was mended and a name follows on the same line. -/
def anotherBinding (mended : Bool) : Action Bool := do
  if ← eat .comma then return true
  else
    let s ← get
    return mended && s.current.kind = .identifier && !s.newlineBefore

/-- The loop of `variableDeclaration`, with the bindings so far, the last
of them first. -/
def bindingsFrom : (turns : Nat) → List Declarator →
    Parse (List Declarator)
  | 0, found => return found.reverse
  | turns + 1, found => do
    let d ← tolerant .varBinding (binding g)
    if ← anotherBinding (Mendable.isError d) then
      bindingsFrom turns (d :: found)
    else
      return (d :: found).reverse

/-- **A declaration without its terminator.** The word that opens it is
the current token. -/
def variableDeclaration : Parse VariableDeclaration := do
  let token ← advance
  let kind := (varKind? token.kind).getD .varWord
  let declarators ← bindingsFrom g (← read).turns []
  return ⟨kind, declarators, ← spanFrom token.span.start⟩

/-- A declaration as a statement. -/
def declarationStatement : Parse Statement := do
  let start ← here
  let d ← variableDeclaration g
  terminator false
  return .declaration { d with span := ← spanFrom start }

/-! ## Expressions as statements -/

/-- The end of an expression statement. Text that could not be read takes
a terminator if there is one; a function or class needs none. -/
def expressionEnd (e : Expression) : Action Unit := do
  if e.isError then discard (eat .semicolon)
  else if e.isDeclarationLike then declarationEnd
  else terminator true

/-- **An expression as a statement.** -/
def expressionStatement : Parse Statement := do
  let start ← here
  let e ← tolerant .expressionStatement (expression g)
  expressionEnd e
  return .expression e (← spanFrom start)

end ScriptTree.Parse
