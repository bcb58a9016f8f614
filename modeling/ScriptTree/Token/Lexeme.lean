import ScriptTree.Text.Blank
import ScriptTree.Token.Basic

/-!
# One token at the front of a text

`Lexeme.atFront` looks at a text that begins with some character and says what
token stands there: its kind, what is wrong with it, and its **extent**,
the number of characters it has after the first. The token's text is then
cut off by that number. So every token has at least one character and
lies in the text it was found in, whatever the rules below say, and the
rules are free to be only about where a token ends.

There is one such rule for each class of token. The rules for delimited
texts count as they go; each takes the count so far and goes on from
there.
-/

namespace ScriptTree

/-! ## Character classes -/

/-- Whether a name may begin with the character. -/
def isWordStart (c : Char) : Bool :=
  c.isAlpha || c = '_' || c = '$'

/-- Whether a name may go on with the character. -/
def isWordChar (c : Char) : Bool :=
  c.isAlphanum || c = '_' || c = '$'

/-- Whether the character is a hexadecimal digit. -/
def isHexDigit (c : Char) : Bool :=
  c.isDigit || ('a' ≤ c && c ≤ 'f') || ('A' ≤ c && c ≤ 'F')

/-- The marks and quotes some token begins with. -/
def markChars : List Char :=
  ['(', ')', '{', '}', '[', ']', ';', ',', '.', ':', '?', '~', '^', '%',
    '=', '+', '-', '*', '!', '<', '>', '&', '|', '/', '"', '\x27', '\x60']

/-- **Where a run of stray characters ends**: before a character some
token begins with, and before white space. -/
def endsStray (c : Char) : Bool :=
  isWordChar c || isWhiteSpace c || markChars.contains c

/-! ## Where delimited texts end -/

/-- **A string**, from behind its opening quote: it ends with the next
such quote that no backslash precedes. A line break that no backslash
precedes, or the end of the text, leaves it without an end. -/
def stringExtent (quote : Char) : List Char → Nat → Nat × Option LexError
  | [], n => (n, some .unterminatedString)
  | '\n' :: _, n => (n, some .unterminatedString)
  | '\\' :: _ :: cs, n => stringExtent quote cs (n + 2)
  | c :: cs, n =>
    if c = quote then (n + 1, none) else stringExtent quote cs (n + 1)

/-- The closing quote of a template, if it has one. -/
def templateExtent? : List Char → Nat → Option Nat
  | [], _ => none
  | '\x60' :: _, n => some (n + 1)
  | '\\' :: _ :: cs, n => templateExtent? cs (n + 2)
  | _ :: cs, n => templateExtent? cs (n + 1)

/-- The closing mark of a comment, if it has one. -/
def commentExtent? : List Char → Nat → Option Nat
  | [], _ => none
  | '*' :: '/' :: _, n => some (n + 2)
  | _ :: cs, n => commentExtent? cs (n + 1)

/-- The number of characters before the next line break. -/
def lineExtent (cs : List Char) : Nat :=
  (cs.takeWhile (· ≠ '\n')).length

/-- **A regular expression**, from behind its opening slash: it ends with
the next slash that is neither escaped nor inside square brackets, and
the flags after it, which are lower-case letters. A line break or the end
of the text leaves it without an end. -/
def regexExtent : (inClass : Bool) → List Char → Nat → Nat × Option LexError
  | _, [], n => (n, some .unterminatedRegex)
  | _, '\n' :: _, n => (n, some .unterminatedRegex)
  | inClass, '\\' :: c :: cs, n =>
    if c = '\n' then (n + 1, some .unterminatedRegex)
    else regexExtent inClass cs (n + 2)
  | _, '[' :: cs, n => regexExtent true cs (n + 1)
  | _, ']' :: cs, n => regexExtent false cs (n + 1)
  | false, '/' :: cs, n =>
    (n + 1 + (cs.takeWhile Char.isLower).length, none)
  | inClass, _ :: cs, n => regexExtent inClass cs (n + 1)

/-! ## Where the other tokens end -/

/-- The digits after a hexadecimal mark, if that is what follows a
zero. -/
def hexExtent? : List Char → Option Nat
  | x :: d :: cs =>
    if (x = 'x' || x = 'X') && isHexDigit d then
      some (1 + ((d :: cs).takeWhile isHexDigit).length)
    else none
  | _ => none

/-- Digits, and after them a point with the digits behind it, of which
there may be none. -/
def decimalExtent (cs : List Char) : Nat :=
  let whole := (cs.takeWhile Char.isDigit).length
  match cs.drop whole with
  | '.' :: fraction => whole + 1 + (fraction.takeWhile Char.isDigit).length
  | _ => whole

/-- **A number**, from behind its first digit. -/
def numberExtent (first : Char) (cs : List Char) : Nat :=
  match if first = '0' then hexExtent? cs else none with
  | some n => n
  | none => decimalExtent cs

/-! ## The token itself -/

/-- **What token stands at the front of a text.** -/
structure Lexeme where
  /-- Its kind. -/
  kind : TokenKind
  /-- The number of its characters after the first. -/
  extent : Nat
  /-- What is wrong with it, if anything is. -/
  error : Option LexError
deriving Repr, DecidableEq

namespace Lexeme

/-- A comment up to its closing mark, from behind its opening one; without
a closing mark it ends with its first line. -/
def blockComment (cs : List Char) : Lexeme :=
  match commentExtent? cs 1 with
  | some n => ⟨.comment, n, none⟩
  | none => ⟨.comment, 1 + lineExtent cs, some .unterminatedComment⟩

/-- A template, from behind its opening quote; without a closing one it
ends with its first line. -/
def template (cs : List Char) : Lexeme :=
  match templateExtent? cs 0 with
  | some n => ⟨.template, n, none⟩
  | none => ⟨.template, lineExtent cs, some .unterminatedTemplate⟩

/-- A string, from behind its opening quote. -/
def string (quote : Char) (cs : List Char) : Lexeme :=
  let (n, error) := stringExtent quote cs 0
  ⟨.string, n, error⟩

/-- A regular expression, from behind its opening slash. -/
def regex (cs : List Char) : Lexeme :=
  let (n, error) := regexExtent false cs 0
  ⟨.regex, n, error⟩

/-- A name or reserved word that begins with `c`. -/
def word (c : Char) (cs : List Char) : Lexeme :=
  let rest := cs.takeWhile isWordChar
  match Keyword.ofSpelling? (String.ofList (c :: rest)) with
  | some k => ⟨.keyword k, rest.length, none⟩
  | none => ⟨.identifier, rest.length, none⟩

/-- A run of stray characters that begins with `c`. -/
def stray (c : Char) (cs : List Char) : Lexeme :=
  ⟨.invalid, (cs.takeWhile (fun d => !endsStray d)).length,
    some (.unexpectedCharacter c)⟩

/-- **The token at the front of a text** that begins with `c` and goes on
with `cs`. What a lone slash means depends on what precedes it: with
`slashDivides` it is an operator, and without it opens a regular
expression. -/
def atFront (slashDivides : Bool) (c : Char) (cs : List Char) : Lexeme :=
  match c, cs with
  | '/', '/' :: rest => ⟨.comment, 1 + lineExtent rest, none⟩
  | '/', '*' :: rest => blockComment rest
  | c, cs =>
    if c = '/' && !slashDivides then regex cs
    else match Punctuator.longest? (c :: cs) with
      | some (p, n) => ⟨.punctuator p, n - 1, none⟩
      | none =>
        if c = '"' || c = '\x27' then string c cs
        else if c = '\x60' then template cs
        else if c.isDigit then ⟨.number, numberExtent c cs, none⟩
        else if isWordStart c then word c cs
        else stray c cs

end Lexeme

end ScriptTree
