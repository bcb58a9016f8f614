/-!
# Punctuators

The marks of a script: brackets, separators and operators. One rule cuts
them out of a text – the longest mark the text begins with is the one
meant – and `longest?` is that rule, with `byLength` listing the marks
so that a longer one comes before its own beginnings.
-/

namespace ScriptTree

/-- **A mark of punctuation or an operator sign.** -/
inductive Punctuator where
  | lParen | rParen | lBrace | rBrace | lBracket
  | rBracket | semicolon | comma | dot | colon
  | question | assign | arrow | plus | minus
  | star | slash | percent | eqEq | eqEqEq
  | notEq | notEqEq | lt | ltEq | gt
  | gtEq | andAnd | orOr | not | and
  | or | xor | tilde | ltLt | gtGt
  | plusEq | minusEq | starEq | slashEq | plusPlus
  | minusMinus
deriving Repr, DecidableEq

namespace Punctuator

/-- The mark as a script writes it. -/
def spelling : Punctuator → String
  | lParen => "("
  | rParen => ")"
  | lBrace => "\x7b"
  | rBrace => "\x7d"
  | lBracket => "["
  | rBracket => "]"
  | semicolon => ";"
  | comma => ","
  | dot => "."
  | colon => ":"
  | question => "?"
  | assign => "="
  | arrow => "=>"
  | plus => "+"
  | minus => "-"
  | star => "*"
  | slash => "/"
  | percent => "%"
  | eqEq => "=="
  | eqEqEq => "==="
  | notEq => "!="
  | notEqEq => "!=="
  | lt => "<"
  | ltEq => "<="
  | gt => ">"
  | gtEq => ">="
  | andAnd => "&&"
  | orOr => "||"
  | not => "!"
  | and => "&"
  | or => "|"
  | xor => "^"
  | tilde => "~"
  | ltLt => "<<"
  | gtGt => ">>"
  | plusEq => "+="
  | minusEq => "-="
  | starEq => "*="
  | slashEq => "/="
  | plusPlus => "++"
  | minusMinus => "--"

/-- The name of the mark in a record. -/
def label : Punctuator → String
  | lParen => "LParen"
  | rParen => "RParen"
  | lBrace => "LBrace"
  | rBrace => "RBrace"
  | lBracket => "LBracket"
  | rBracket => "RBracket"
  | semicolon => "Semicolon"
  | comma => "Comma"
  | dot => "Dot"
  | colon => "Colon"
  | question => "Question"
  | assign => "Assign"
  | arrow => "Arrow"
  | plus => "Plus"
  | minus => "Minus"
  | star => "Star"
  | slash => "Slash"
  | percent => "Percent"
  | eqEq => "EqEq"
  | eqEqEq => "EqEqEq"
  | notEq => "NotEq"
  | notEqEq => "NotEqEq"
  | lt => "Lt"
  | ltEq => "LtEq"
  | gt => "Gt"
  | gtEq => "GtEq"
  | andAnd => "AndAnd"
  | orOr => "OrOr"
  | not => "Not"
  | and => "And"
  | or => "Or"
  | xor => "Xor"
  | tilde => "Tilde"
  | ltLt => "LtLt"
  | gtGt => "GtGt"
  | plusEq => "PlusEq"
  | minusEq => "MinusEq"
  | starEq => "StarEq"
  | slashEq => "SlashEq"
  | plusPlus => "PlusPlus"
  | minusMinus => "MinusMinus"

/-- Every mark, the longer ones first. -/
def byLength : List Punctuator :=
  [ eqEqEq, notEqEq, arrow, eqEq, notEq,
    ltEq, gtEq, andAnd, orOr, ltLt,
    gtGt, plusEq, minusEq, starEq, slashEq,
    plusPlus, minusMinus, lParen, rParen, lBrace,
    rBrace, lBracket, rBracket, semicolon, comma,
    dot, colon, question, assign, plus,
    minus, star, slash, percent, lt,
    gt, not, and, or, xor,
    tilde ]

/-- The marks with the characters they are made of. -/
def spelled : List (List Char × Punctuator) :=
  byLength.map (fun p => (p.spelling.toList, p))

/-- **The longest mark a text begins with**, and the number of its
characters. -/
def longest? (text : List Char) : Option (Punctuator × Nat) :=
  (spelled.find? (fun s => s.1.isPrefixOf text)).map
    (fun s => (s.2, s.1.length))

/-- The mark with a given spelling, if there is one. -/
def ofSpelling? (text : String) : Option Punctuator :=
  byLength.find? (fun p => p.spelling = text)

theorem mem_byLength (p : Punctuator) : p ∈ byLength := by
  cases p <;> decide

/-- No two marks share a spelling. -/
theorem spelling_injective {p q : Punctuator}
    (h : p.spelling = q.spelling) : p = q := by
  have hall : ∀ p ∈ byLength, ∀ q ∈ byLength,
      p.spelling = q.spelling → p = q := by decide
  exact hall p (mem_byLength p) q (mem_byLength q) h

/-- Whether the mark opens a bracket. -/
def isOpener (p : Punctuator) : Bool :=
  p = lParen || p = lBracket || p = lBrace

/-- Whether the mark closes a bracket. -/
def isCloser (p : Punctuator) : Bool :=
  p = rParen || p = rBracket || p = rBrace

end Punctuator

end ScriptTree
