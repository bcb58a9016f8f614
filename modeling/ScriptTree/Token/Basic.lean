import ScriptTree.Text.Location
import ScriptTree.Token.Keyword
import ScriptTree.Token.Punctuator

/-!
# Tokens

A token is a piece of a text with the class it belongs to. Scanning never
gives up: a literal without an end, or a run of characters that begin no
token, is a token too, and carries the `LexError` that says what is wrong
with it.

Two kinds are **extra**: comments, and those line breaks that may end a
statement. They stand between the tokens the grammar is made of and are
no part of it.
-/

namespace ScriptTree

/-- **The class of a token.** -/
inductive TokenKind where
  /-- A name, the words with a meaning only in some places included. -/
  | identifier
  /-- A reserved word. -/
  | keyword (k : Keyword)
  /-- A mark of punctuation or an operator sign. -/
  | punctuator (p : Punctuator)
  /-- A quoted string, its escapes as written. -/
  | string
  /-- A text between back quotes, as written. -/
  | template
  /-- A regular expression with its slashes and flags. -/
  | regex
  /-- A number, decimal or hexadecimal. -/
  | number
  /-- A comment, to the end of the line or to its closing mark. -/
  | comment
  /-- A line break that may end a statement. -/
  | lineBreak
  /-- A run of characters that begin no token. -/
  | invalid
  /-- The end of the text. -/
  | eof
deriving Repr, DecidableEq

namespace TokenKind

/-- Whether tokens of the kind stand between the tokens of the grammar. -/
def isExtra : TokenKind → Bool
  | comment | lineBreak => true
  | _ => false

/-- **Whether an expression may end with such a token.** After one that
may, a slash divides; after any other it begins a regular expression. -/
def canEndExpression : TokenKind → Bool
  | identifier | string | template | regex | number => true
  | punctuator p =>
    match p with
    | .rParen | .rBracket | .plusPlus | .minusMinus => true
    | _ => false
  | keyword k =>
    match k with
    | .kwThis | .kwSuper | .kwTrue | .kwFalse | .kwNull | .kwUndefined => true
    | _ => false
  | _ => false

/-- **Whether a statement may end with such a token**, so that a line
break after it may be the statement's end. -/
def canEndStatement (kind : TokenKind) : Bool :=
  kind.canEndExpression ||
    match kind with
    | punctuator .rBrace => true
    | keyword .kwBreak | keyword .kwContinue => true
    | keyword .kwReturn | keyword .kwYield => true
    | _ => false

/-- The spelling of the reserved word or mark the kind stands for. -/
def spelling? : TokenKind → Option String
  | keyword k => some k.spelling
  | punctuator p => some p.spelling
  | _ => none

/-- The name of the kind in a record. -/
def label : TokenKind → String
  | identifier => "Identifier"
  | keyword k => "Keyword(" ++ k.label ++ ")"
  | punctuator p => "Punctuator(" ++ p.label ++ ")"
  | string => "String"
  | template => "TemplateString"
  | regex => "Regex"
  | number => "Number"
  | comment => "Comment"
  | lineBreak => "LineBreak"
  | invalid => "Invalid"
  | eof => "EOF"

/-- Whether the kind opens a bracket. -/
def isOpener : TokenKind → Bool
  | punctuator p => p.isOpener
  | _ => false

/-- Whether the kind closes a bracket. -/
def isCloser : TokenKind → Bool
  | punctuator p => p.isCloser
  | _ => false

end TokenKind

/-- **What is wrong with a token.** -/
inductive LexError where
  /-- A string met the end of its line or of the text. -/
  | unterminatedString
  /-- A template met the end of the text. -/
  | unterminatedTemplate
  /-- A regular expression met the end of its line or of the text. -/
  | unterminatedRegex
  /-- A comment met the end of the text before its closing mark. -/
  | unterminatedComment
  /-- A character that begins no token. -/
  | unexpectedCharacter (c : Char)
deriving Repr, DecidableEq

/-- The message for a reader. -/
def LexError.message : LexError → String
  | unterminatedString => "unterminated string literal"
  | unterminatedTemplate => "unterminated template string"
  | unterminatedRegex => "unterminated regular expression"
  | unterminatedComment => "unterminated block comment"
  | unexpectedCharacter c => "unexpected character '" ++ c.toString ++ "'"

/-- The name of the fault in a record. -/
def LexError.label : LexError → String
  | unterminatedString => "UnterminatedString"
  | unterminatedTemplate => "UnterminatedTemplate"
  | unterminatedRegex => "UnterminatedRegex"
  | unterminatedComment => "UnterminatedComment"
  | unexpectedCharacter _ => "UnexpectedCharacter"

/-- **A piece of a text with its class.** -/
structure Token where
  /-- The class. -/
  kind : TokenKind
  /-- The piece itself. -/
  text : String
  /-- Where it lies. -/
  span : Span
  /-- The place of its first character. -/
  position : Position
  /-- What is wrong with it, if anything is. -/
  error : Option LexError
deriving Repr, DecidableEq

namespace Token

/-- Whether the token is a given mark. -/
def isPunctuator (t : Token) (p : Punctuator) : Bool :=
  t.kind = .punctuator p

/-- Whether the token is a given reserved word. -/
def isKeyword (t : Token) (k : Keyword) : Bool :=
  t.kind = .keyword k

/-- Whether the token is the given name: the words with a meaning only in
some places are recognized so. -/
def isWord (t : Token) (word : String) : Bool :=
  t.kind = .identifier && t.text = word

/-- Whether the token ends the text. -/
def isEof (t : Token) : Bool := t.kind = .eof

/-- **The token in the words of a message.** Literals with a text of any
length are named by their kind alone. -/
def describe (t : Token) : String :=
  match t.kind with
  | .eof => "end of input"
  | .lineBreak => "line break"
  | .string => "string"
  | .template => "template string"
  | .regex => "regular expression"
  | .number => "number '" ++ t.text ++ "'"
  | .identifier => "identifier '" ++ t.text ++ "'"
  | _ => "'" ++ t.text ++ "'"

end Token

end ScriptTree
