/-!
# Terms on one line

The printed form of a tree is a term: a name in parentheses with the
parts behind it, or a bare atom. Printing a tree thus falls into two
steps that know nothing of each other, which parts a node shows and how a
term is written.

An atom is written as it is. It may hold blanks or parentheses of its
own, so a term cannot always be read back from its text.
-/

namespace ScriptTree

/-- **A term.** -/
inductive Sexp where
  /-- A bare text. -/
  | atom (text : String)
  /-- A named list of parts. -/
  | node (name : String) (parts : List Sexp)

namespace Sexp

mutual

/-- Writes the term behind what is written already. -/
def writeOnto (out : String) : Sexp → String
  | atom text => out ++ text
  | node name parts => writeParts (out ++ "(" ++ name) parts ++ ")"

/-- Writes the parts of a term, each behind a blank. -/
def writeParts (out : String) : List Sexp → String
  | [] => out
  | part :: parts => writeParts (writeOnto (out ++ " ") part) parts

end

/-- **A term as text.** -/
def render (term : Sexp) : String := term.writeOnto ""

end Sexp

end ScriptTree
