import ScriptTree.Proofs.Token.Front
import ScriptTree.Proofs.Token.Session

/-!
# A cursor that can fail

The scanner takes its text apart as it goes, so there is nothing it could
do wrong with an offset. A program that keeps the text in one piece and an
offset into it can: it may cut the text inside a character or beyond its
end, it may step forward where nothing is left, its counters of lines and
columns may overflow. A `Cursor` is such a place in a text, and a `Scan` is
a program that works with it, in which each of these mistakes is a `Fault`
that ends the program. Loops are bounded, and one that uses up its turns is
at fault as well.

The tokens of a text are scanned here once more with a cursor, one
character at a time and with no more look-ahead than two characters and
the blank characters behind a line break. What a scan has read is then not
a matter of lists any more; that it agrees with the scanner, and so is
never at fault, has to be proved.
-/

namespace ScriptTree

/-- **What can go wrong with a cursor.** -/
inductive Fault where
  /-- A slice with its ends out of order, out of range or inside a
  character. -/
  | slice (s : Span)
  /-- A step forward at the end of the text. -/
  | atEnd
  /-- A line or a column that does not fit into 32 bits. -/
  | overflow
  /-- A counter of something taken below nothing. -/
  | underflow
  /-- A loop that has used up its turns. -/
  | endless
deriving Repr, DecidableEq

/-- **A slice of a text**, if it is one. -/
def sliceOrFail (text : List Char) (s : Span) : Except Fault (List Char) :=
  if s.start ≤ s.stop ∧ IsCut text s.start ∧ IsCut text s.stop then
    .ok (s.slice text)
  else .error (.slice s)

/-- **A position with counters of 32 bits**, if it is one. -/
def Position.orFail (p : Position) : Except Fault Position :=
  if p.Fits then .ok p else .error .overflow

/-- **An offset in a text** with what the rules for tokens need to know
about the tokens before it. -/
structure Cursor where
  /-- The text. -/
  source : List Char
  /-- The offset, with its line and column. -/
  position : Position
  /-- The kind of the last token of the grammar. -/
  previous : Option TokenKind
  /-- Whether a line break has been given out since that token. -/
  breakEmitted : Bool
  /-- Whether the end of the text has been given out. -/
  finished : Bool
deriving Repr, DecidableEq

/-- The cursor at the front of a text. -/
def Cursor.ofSource (source : List Char) : Cursor :=
  ⟨source, .start, none, false, false⟩

/-- **A program that works with a cursor.** -/
abbrev Scan (α : Type) : Type := StateT Cursor (Except Fault) α

namespace Scan

/-! ## Steps of the cursor -/

/-- What lies behind the cursor. -/
def ahead : Scan (List Char) := do
  let c ← get
  sliceOrFail c.source ⟨c.position.offset, byteLength c.source⟩

/-- The character at the cursor. -/
def peek : Scan (Option Char) := do
  return (← ahead).head?

/-- The character after the one at the cursor. -/
def peekNext : Scan (Option Char) := do
  return (← ahead).tail.head?

/-- **A step forward** over one character. -/
def advance : Scan Char := do
  match ← peek with
  | none => throw .atEnd
  | some char =>
    let c ← get
    let position ← (c.position.past char).orFail
    set { c with position := position }
    return char

/-- A step over a given character, if that is what stands at the
cursor. -/
def matchChar (expected : Char) : Scan Bool := do
  if (← peek) = some expected then
    discard advance
    return true
  else return false

/-- Back to a place passed before, if there is one. -/
def rewindTo (position? : Option Position) : Scan Unit := do
  match position? with
  | some position => modify ({ · with position := position })
  | none => return ()

/-- A loop with turns enough for the whole text. -/
def forText {α : Type} (loop : Nat → Scan α) : Scan α := do
  loop ((← get).source.length + 1)

/-- Steps forward as long as the characters have a property. -/
def skipWhile (p : Char → Bool) : (turns : Nat) → Scan Unit
  | 0 => throw .endless
  | turns + 1 => do
    if (← peek).any p then
      discard advance
      skipWhile p turns

/-! ## The tokens with an end of their own -/

/-- A string, from behind its opening quote. -/
def string (quote : Char) : (turns : Nat) → Scan (Option LexError)
  | 0 => throw .endless
  | turns + 1 => do
    match ← peek with
    | none => return some .unterminatedString
    | some char =>
      if char = '\n' then return some .unterminatedString
      else if char = '\\' then
        discard advance
        if (← peek).isSome then
          discard advance
          string quote turns
        else string quote turns
      else
        discard advance
        if char = quote then return none else string quote turns

/-- Where the first line of a text ends, if it ends at a place where the
character `char` stands and has not ended before. -/
def firstLineEnd (first? : Option Position) (char : Char) :
    Scan (Option Position) := do
  if char = '\n' && first?.isNone then return some (← get).position
  else return first?

/-- A template, from behind its opening quote. Without an end of its own it
ends with its first line. -/
def template : (turns : Nat) → (first? : Option Position) →
    Scan (Option LexError)
  | 0, _ => throw .endless
  | turns + 1, first? => do
    match ← peek with
    | none =>
      rewindTo first?
      return some .unterminatedTemplate
    | some char =>
      if char = '\x60' then
        discard advance
        return none
      else if char = '\\' then
        discard advance
        match ← peek with
        | none => template turns first?
        | some escaped =>
          let first? ← firstLineEnd first? escaped
          discard advance
          template turns first?
      else
        let first? ← firstLineEnd first? char
        discard advance
        template turns first?

/-- A comment, from behind its opening mark. Without an end of its own it
ends with its first line. -/
def blockComment : (turns : Nat) → (first? : Option Position) →
    Scan (Option LexError)
  | 0, _ => throw .endless
  | turns + 1, first? => do
    match ← peek with
    | none =>
      rewindTo first?
      return some .unterminatedComment
    | some char =>
      if char = '*' && (← peekNext) = some '/' then
        discard advance
        discard advance
        return none
      else
        let first? ← firstLineEnd first? char
        discard advance
        blockComment turns first?

/-- A regular expression up to its closing slash, from behind its opening
one. -/
def regexBody : (turns : Nat) → (inClass : Bool) → Scan (Option LexError)
  | 0, _ => throw .endless
  | turns + 1, inClass => do
    match ← peek with
    | none => return some .unterminatedRegex
    | some char =>
      if char = '\n' then return some .unterminatedRegex
      else if char = '\\' then
        discard advance
        if (← peek).any (· ≠ '\n') then
          discard advance
          regexBody turns inClass
        else regexBody turns inClass
      else if char = '[' then
        discard advance
        regexBody turns true
      else if char = ']' then
        discard advance
        regexBody turns false
      else if char = '/' && !inClass then
        discard advance
        return none
      else
        discard advance
        regexBody turns inClass

/-- A regular expression, from behind its opening slash: its flags are
lower-case letters. -/
def regex : Scan (Option LexError) := do
  match ← forText (regexBody · false) with
  | some error => return some error
  | none =>
    forText (skipWhile Char.isLower)
    return none

/-- A number, from behind its first digit. -/
def number (first : Char) : Scan Unit := do
  if first = '0' && (← peek).any (fun x => x = 'x' || x = 'X')
      && (← peekNext).any isHexDigit then
    discard advance
    forText (skipWhile isHexDigit)
  else
    forText (skipWhile Char.isDigit)
    if (← peek) = some '.' then
      discard advance
      forText (skipWhile Char.isDigit)

/-! ## Any token -/

/-- The kind of a mark, with nothing wrong. -/
def mark (p : Punctuator) : Scan (TokenKind × Option LexError) :=
  return (.punctuator p, none)

/-- What a slash begins: a comment, a regular expression, or an operator. -/
def slash : Scan (TokenKind × Option LexError) := do
  if ← matchChar '/' then
    forText (skipWhile (· ≠ '\n'))
    return (.comment, none)
  else if ← matchChar '*' then
    return (.comment, ← forText (blockComment · none))
  else if !(← get).previous.any TokenKind.canEndExpression then
    return (.regex, ← regex)
  else if ← matchChar '=' then mark .slashEq
  else mark .slash

/-- A name or reserved word, which begins at `start`. -/
def word (start : Nat) : Scan (TokenKind × Option LexError) := do
  forText (skipWhile isWordChar)
  let c ← get
  let text ← sliceOrFail c.source ⟨start, c.position.offset⟩
  match Keyword.ofSpelling? (String.ofList text) with
  | some k => return (.keyword k, none)
  | none => return (.identifier, none)

/-- **The kind of the token at the cursor**, which begins at `start`, and
what is wrong with it. The cursor goes on to its end. -/
def tokenFrom (start : Nat) : Scan (TokenKind × Option LexError) := do
  let char ← advance
  match char with
  | '(' => mark .lParen
  | ')' => mark .rParen
  | '{' => mark .lBrace
  | '}' => mark .rBrace
  | '[' => mark .lBracket
  | ']' => mark .rBracket
  | ';' => mark .semicolon
  | ',' => mark .comma
  | '.' => mark .dot
  | ':' => mark .colon
  | '?' => mark .question
  | '~' => mark .tilde
  | '^' => mark .xor
  | '%' => mark .percent
  | '=' =>
    if ← matchChar '>' then mark .arrow
    else if ← matchChar '=' then
      if ← matchChar '=' then mark .eqEqEq else mark .eqEq
    else mark .assign
  | '+' =>
    if ← matchChar '+' then mark .plusPlus
    else if ← matchChar '=' then mark .plusEq
    else mark .plus
  | '-' =>
    if ← matchChar '-' then mark .minusMinus
    else if ← matchChar '=' then mark .minusEq
    else mark .minus
  | '*' => if ← matchChar '=' then mark .starEq else mark .star
  | '!' =>
    if ← matchChar '=' then
      if ← matchChar '=' then mark .notEqEq else mark .notEq
    else mark .not
  | '<' =>
    if ← matchChar '<' then mark .ltLt
    else if ← matchChar '=' then mark .ltEq
    else mark .lt
  | '>' =>
    if ← matchChar '>' then mark .gtGt
    else if ← matchChar '=' then mark .gtEq
    else mark .gt
  | '&' => if ← matchChar '&' then mark .andAnd else mark .and
  | '|' => if ← matchChar '|' then mark .orOr else mark .or
  | '/' => slash
  | '"' => return (.string, ← forText (string char))
  | '\x27' => return (.string, ← forText (string char))
  | '\x60' => return (.template, ← forText (template · none))
  | _ =>
    if char.isDigit then
      number char
      return (.number, none)
    else if isWordStart char then word start
    else
      forText (skipWhile (fun next => !endsStray next))
      return (.invalid, some (.unexpectedCharacter char))

/-- The token from a place passed before up to the cursor. -/
def makeToken (kind : TokenKind) (start : Position)
    (error : Option LexError) : Scan Token := do
  let c ← get
  let span : Span := ⟨start.offset, c.position.offset⟩
  let text ← sliceOrFail c.source span
  return ⟨kind, String.ofList text, span, start, error⟩

/-- Takes note of a token of the grammar. -/
def remember (kind : TokenKind) : Scan Unit := do
  if !kind.isExtra then
    let c ← get
    let kind :=
      match kind with
      | .keyword _ =>
        if c.previous = some (.punctuator .dot) then .identifier else kind
      | _ => kind
    set { c with previous := some kind, breakEmitted := false }

/-- Whether the line break just passed may end a statement. -/
def breakMatters : Scan Bool := do
  let c ← get
  if !c.breakEmitted && c.previous.any TokenKind.canEndStatement then
    return !Scanner.continuesChain (← ahead)
  else return false

/-- The loop of `next`: one turn for each line break passed over. -/
def nextFrom : (turns : Nat) → Scan Token
  | 0 => throw .endless
  | turns + 1 => do
    forText (skipWhile isBlank)
    let start := (← get).position
    match ← peek with
    | none => makeToken .eof start none
    | some char =>
      if char = '\n' then
        discard advance
        if ← breakMatters then
          modify ({ · with breakEmitted := true })
          makeToken .lineBreak start none
        else nextFrom turns
      else
        let (kind, error) ← tokenFrom start.offset
        let token ← makeToken kind start error
        remember kind
        return token

/-- **The next token.** -/
def next : Scan Token := forText nextFrom

/-- **A token read again as a regular expression.** -/
def rescanRegex (token : Token) : Scan Token := do
  modify ({ · with
    position :=
      ⟨token.position.line, token.position.column, token.span.start⟩ })
  discard advance
  let error ← regex
  modify ({ · with previous := some .regex, breakEmitted := false })
  makeToken .regex token.position error

/-- **The next token of the stream**, which ends with its first end
token. -/
def nextOfStream : Scan (Option Token) := do
  if (← get).finished then return none
  else
    let token ← next
    if token.isEof then modify ({ · with finished := true })
    return some token

/-- What is left of the stream, with the tokens found so far, the last of
them first. -/
def drainFrom : (turns : Nat) → List Token → Scan (List Token)
  | 0, _ => throw .endless
  | turns + 1, found => do
    match ← nextOfStream with
    | none => return found.reverse
    | some token => drainFrom turns (token :: found)

/-! ## Sessions -/

/-- **One request**, with the tokens handed out so far. -/
def perform (tokens : List Token) : Request → Scan (List Token)
  | .next => return tokens ++ [← next]
  | .nextOfStream => return tokens ++ (← nextOfStream).toList
  | .drainCopy => do
    let c ← get
    let drained ← forText (fun turns => drainFrom (turns + 1) [])
    set c
    return tokens ++ drained
  | .rescanRegex i =>
    match tokens[i]? with
    | some token =>
      if token.isEof then return tokens
      else return tokens ++ [← rescanRegex token]
    | none => return tokens

/-- **Some requests**, one after the other. -/
def session (requests : List Request) : Scan (List Token) :=
  requests.foldlM perform []

end Scan

end ScriptTree
