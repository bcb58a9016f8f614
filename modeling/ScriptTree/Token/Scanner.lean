import ScriptTree.Token.Lexeme

/-!
# Scanning a text into tokens

A `Scanner` is a place in a text together with what the rules need to
know about the tokens before it. Two rules look back: whether a slash
divides, and whether a line break may end a statement. Both ask for the
last token of the grammar, which `previous` holds – as a name where it is
a reserved word behind a dot, since there it is the name of a property.

Comments are no tokens of the grammar and leave `previous` as it is. They
still count for one rule: a line that begins with a dot continues the one
before it, and a comment in front of the dot hides it.

The text after the scanner's place is kept as `rest`; the whole text is
kept as well, because a caller may send the scanner back to a token it
has already made (`Scanner.rescanRegex`).
-/

namespace ScriptTree

/-- **A place in a text from which tokens are read.** -/
structure Scanner where
  /-- The whole text. -/
  source : List Char
  /-- The place in it. -/
  position : Position
  /-- What lies behind the place. -/
  rest : List Char
  /-- The kind of the last token of the grammar. -/
  previous : Option TokenKind
  /-- Whether a line break has been given out since that token. -/
  breakEmitted : Bool
  /-- Whether the end of the text has been given out by `next?`. -/
  finished : Bool
deriving Repr, DecidableEq

namespace Scanner

/-- The scanner at the front of a text. -/
def ofSource (source : List Char) : Scanner where
  source := source
  position := .start
  rest := source
  previous := none
  breakEmitted := false
  finished := false

/-- Whether a text goes on with a dot that is not the point of a number,
blank lines aside: a line that begins so continues the one before. -/
def continuesChain (text : List Char) : Bool :=
  match trimStart text with
  | '.' :: c :: _ => !c.isDigit
  | '.' :: [] => true
  | _ => false

/-- **Whether a line break may end a statement**, given the text behind
it: the last token must be able to end one, no line break may have been
given out since, and the next line must not continue the chain. -/
def breakMatters (s : Scanner) (behind : List Char) : Bool :=
  !s.breakEmitted && s.previous.any TokenKind.canEndStatement
    && !continuesChain behind

/-- Passes over blanks and over the line breaks that do not matter. -/
def skipBlanks (matters : List Char → Bool) :
    Position → List Char → Position × List Char
  | p, [] => (p, [])
  | p, c :: cs =>
    if isBlank c || (c = '\n' && !matters cs) then
      skipBlanks matters (p.advance c) cs
    else (p, c :: cs)

/-- The token of the next `n` characters, and the scanner behind it. -/
def take (s : Scanner) (kind : TokenKind) (n : Nat)
    (error : Option LexError) : Token × Scanner :=
  let text := s.rest.take n
  let stop := s.position.advanceBy text
  ({ kind := kind
     text := String.ofList text
     span := ⟨s.position.offset, stop.offset⟩
     position := s.position
     error := error },
   { s with position := stop, rest := s.rest.drop n })

/-- Takes note of a token of the grammar. -/
def remember (s : Scanner) (kind : TokenKind) : Scanner :=
  if kind.isExtra then s
  else
    let kind :=
      match kind with
      | .keyword _ =>
        if s.previous = some (.punctuator .dot) then .identifier else kind
      | _ => kind
    { s with previous := some kind, breakEmitted := false }

/-- The scanner at the front of the next token: blanks and line breaks
that do not matter are behind it. -/
def settle (s : Scanner) : Scanner :=
  let (position, rest) := skipBlanks s.breakMatters s.position s.rest
  { s with position := position, rest := rest }

/-- The token right at the scanner's place. A line break found there is
one that matters. -/
def read (s : Scanner) : Token × Scanner :=
  match s.rest with
  | [] => s.take .eof 0 none
  | '\n' :: _ =>
    let (token, s) := s.take .lineBreak 1 none
    (token, { s with breakEmitted := true })
  | c :: cs =>
    let slashDivides := s.previous.any TokenKind.canEndExpression
    let lexeme := Lexeme.atFront slashDivides c cs
    let (token, s) := s.take lexeme.kind (lexeme.extent + 1) lexeme.error
    (token, s.remember lexeme.kind)

/-- **The next token**, comments and line breaks that matter included. At
the end of the text it is the end token, however often it is asked
for. -/
def next (s : Scanner) : Token × Scanner := s.settle.read

/-- **Reads a token again as a regular expression**: its first character
stands for the opening slash. The scanner goes back to the token and on
to the end of the expression. -/
def rescanRegex (s : Scanner) (token : Token) : Token × Scanner :=
  let rest :=
    match splitAtByte? s.source token.span.start with
    | some (_, rest) => rest
    | none => []
  let s := { s with position := token.position, rest := rest }
  let lexeme := Lexeme.regex (rest.drop 1)
  let (token, s) := s.take .regex (lexeme.extent + 1) lexeme.error
  (token, { s with previous := some .regex, breakEmitted := false })

/-- **The next token of the stream**, which ends after the first end
token it gives out. -/
def next? (s : Scanner) : Option (Token × Scanner) :=
  if s.finished then none
  else
    let (token, s) := s.next
    some (token, if token.isEof then { s with finished := true } else s)

/-! ## Reading to the end -/

theorem skipBlanks_length_le (matters : List Char → Bool) (p : Position)
    (cs : List Char) :
    (skipBlanks matters p cs).2.length ≤ cs.length := by
  induction cs generalizing p with
  | nil => simp [skipBlanks]
  | cons c cs ih =>
    rw [skipBlanks]
    split
    · exact Nat.le_succ_of_le (ih _)
    · exact Nat.le_refl _

@[simp] theorem remember_rest (s : Scanner) (kind : TokenKind) :
    (s.remember kind).rest = s.rest := by
  unfold remember
  split <;> rfl

@[simp] theorem take_rest (s : Scanner) (kind : TokenKind) (n : Nat)
    (error : Option LexError) :
    (s.take kind n error).2.rest = s.rest.drop n := rfl

@[simp] theorem take_kind (s : Scanner) (kind : TokenKind) (n : Nat)
    (error : Option LexError) :
    (s.take kind n error).1.kind = kind := rfl

theorem settle_rest_length_le (s : Scanner) :
    s.settle.rest.length ≤ s.rest.length :=
  skipBlanks_length_le _ _ _

/-- A token found at the scanner's place has at least one character. -/
theorem read_rest_length_lt (s : Scanner) (h : s.read.1.isEof = false) :
    s.read.2.rest.length < s.rest.length := by
  cases hs : s.rest with
  | nil =>
    simp only [read, hs] at h
    simp [Token.isEof] at h
  | cons c cs =>
    unfold read
    split
    · simp_all only [reduceCtorEq]
    · rename_i found
      simp only [take_rest, found, List.length_drop, List.length_cons] at hs ⊢
      grind
    · rename_i found _
      simp only [remember_rest, take_rest, List.length_drop,
        List.length_cons] at hs ⊢
      grind

/-- **Every token but the end of the text takes something away** from what
is left to read. -/
theorem next_rest_length_lt (s : Scanner) (h : s.next.1.isEof = false) :
    s.next.2.rest.length < s.rest.length :=
  Nat.lt_of_lt_of_le (read_rest_length_lt s.settle h)
    (settle_rest_length_le s)

/-- The tokens from the scanner's place on, with the scanner behind them.
The ones already found are in `found`, the last of them first. -/
def drainFrom (s : Scanner) (found : List Token) : List Token × Scanner :=
  let step := s.next
  if step.1.isEof then
    ((step.1 :: found).reverse, { step.2 with finished := true })
  else step.2.drainFrom (step.1 :: found)
termination_by s.rest.length
decreasing_by
  exact next_rest_length_lt s (Bool.eq_false_iff.2 ‹¬_›)

/-- **What is left of the stream**: every token up to the end token, or
none if that has been given out. -/
def drain (s : Scanner) : List Token × Scanner :=
  if s.finished then ([], s) else s.drainFrom []

end Scanner

/-- **The tokens of a text**, with the end token as the last. -/
def tokens (source : List Char) : List Token :=
  (Scanner.ofSource source).drain.1

end ScriptTree
