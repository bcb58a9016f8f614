import ScriptTree.Text.Printable

/-!
# Quoted text

A text in double quotes, with everything escaped that could be taken for
something else: the quote and the backslash, the controls, and all
characters that do not print by themselves. The result is one line of
visible characters, whatever the text.
-/

namespace ScriptTree

/-- A character by its number, in hexadecimal. -/
def escapeNumber (c : Char) : String :=
  "\\u\x7b" ++ String.ofList (Nat.toDigits 16 c.toNat) ++ "\x7d"

/-- **One character of a quoted text.** Six characters have a short
escape; the single quote needs none. -/
def quoteChar (c : Char) : String :=
  if c = '\x00' then "\\0"
  else if c = '\t' then "\\t"
  else if c = '\r' then "\\r"
  else if c = '\n' then "\\n"
  else if c = '"' then "\\\""
  else if c = '\\' then "\\\\"
  else if isExtending c || !isPrintable c then escapeNumber c
  else c.toString

/-- **A text in quotes.** -/
def quote (text : String) : String :=
  "\"" ++ String.join (text.toList.map quoteChar) ++ "\""

end ScriptTree
