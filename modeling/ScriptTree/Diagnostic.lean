import ScriptTree.Text.Location

/-!
# Diagnostics

Reading a text never fails. Whatever is wrong with it is recorded beside
the tree, each problem as one `Diagnostic` that says what it is, how
serious it is and where it was found.
-/

namespace ScriptTree

/-- **How serious a problem is.** -/
inductive Severity where
  /-- The tree is complete, but the text looks like a slip. -/
  | warning
  /-- Part of the text could not be read as it stands. -/
  | error
deriving Repr, DecidableEq

namespace Severity

/-- The word for the severity in a message. -/
def word : Severity → String
  | warning => "warning"
  | error => "error"

/-- The name of the severity in a record. -/
def label : Severity → String
  | warning => "Warning"
  | error => "Error"

/-- The severities in order, a warning being the least. -/
def rank : Severity → Nat
  | warning => 0
  | error => 1

instance : LT Severity := ⟨fun a b => a.rank < b.rank⟩

instance (a b : Severity) : Decidable (a < b) :=
  inferInstanceAs (Decidable (a.rank < b.rank))

end Severity

/-- **Where a problem arose.** -/
inductive DiagnosticKind where
  /-- A literal or comment without an end, or a character no token has. -/
  | lexical
  /-- A mismatch mended on the spot: an error node stands for the text. -/
  | recoverable
  /-- A mismatch that costs a whole statement, or a missing terminator. -/
  | structural
  /-- A text that holds nothing to read: empty, or not text at all. -/
  | invalidInput
deriving Repr, DecidableEq

/-- The name of the kind in a record. -/
def DiagnosticKind.label : DiagnosticKind → String
  | lexical => "LexError"
  | recoverable => "RecoverableParseError"
  | structural => "StructuralParseError"
  | invalidInput => "InvalidInput"

/-- **A problem found in a text.** -/
structure Diagnostic where
  /-- Where it arose. -/
  kind : DiagnosticKind
  /-- How serious it is. -/
  severity : Severity
  /-- What it is, for a reader. -/
  message : String
  /-- The range at fault. -/
  span : Span
  /-- The place of the range's start. -/
  position : Position
deriving Repr, DecidableEq

namespace Diagnostic

/-- Whether the problem is an error. -/
def isError (d : Diagnostic) : Bool := d.severity = .error

/-- **One line for a reader**: line, column, severity and message. -/
def render (d : Diagnostic) : String :=
  toString d.position.line ++ ":" ++ toString d.position.column ++ ": "
    ++ d.severity.word ++ ": " ++ d.message

end Diagnostic

end ScriptTree
