import ScriptTree.Text.Utf8
import ScriptTree.Operator.Standard
import ScriptTree.Parse.Levels

/-!
# Parsing a script

Parsing always answers: with a tree, in which error nodes stand for what
could not be read, and with the problems found. A caller who wants all or
nothing asks for the `strict` view of the answer.
-/

namespace ScriptTree

/-- **What parsing answers.** -/
structure Outcome where
  /-- The tree. -/
  program : Program
  /-- The problems, in the order they were found. -/
  diagnostics : List Diagnostic

namespace Outcome

/-- Whether a problem is an error. -/
def hasErrors (o : Outcome) : Bool := o.diagnostics.any Diagnostic.isError

/-- **All or nothing**: the tree if there is no error, and otherwise the
errors. -/
def strict (o : Outcome) : Except (List Diagnostic) Program :=
  if o.hasErrors then .error (o.diagnostics.filter Diagnostic.isError)
  else .ok o.program

end Outcome

/-- The message for a script that was refused for its errors. -/
def syntaxErrorsMessage (errors : List Diagnostic) : String :=
  toString errors.length ++ " syntax error(s)"

namespace Parse

/-- A problem with a script that holds no token at all. -/
def reportEmpty : Action Unit := do
  let ctx ← read
  Action.report .invalidInput .warning "empty source"
    ⟨0, byteLength ctx.source⟩

/-- **A whole script.** -/
def script (g : Grammar) : Action (List Statement) := do
  let isEmpty := (← Action.current).isEof
  let body ← statementList g .eof
  if isEmpty then reportEmpty
  return body

end Parse

/-- The statements of a script and the state its parse ends in. -/
def runScript (source : List Char) (options : Options)
    (table : OperatorTable) : List Statement × State :=
  let ctx := Context.ofSource source options table
  (Parse.script (Grammar.levels options.maxNestingDepth) ctx).run
    (State.initial ctx)

/-- **Parses a script** with given options and operators. -/
def parseWith (options : Options) (table : OperatorTable)
    (source : List Char) : Outcome :=
  let (body, s) := runScript source options table
  { program :=
      { body := body
        comments := s.comments.toList
        span := ⟨0, byteLength source⟩ }
    diagnostics := s.diagnostics.toList }

/-- **Parses a script** the standard way. -/
def parse (source : List Char) : Outcome :=
  parseWith .standard .standard source

/-! ## Bytes instead of a text -/

/-- The message for bytes of which the one at an offset belongs to no
character. -/
def invalidByteMessage (offset : Nat) : String :=
  "input is not valid UTF-8 (invalid byte at offset "
    ++ toString offset ++ ")"

/-- **What is answered for bytes that are no text**: an empty script, and
one error at the first byte that belongs to no character. -/
def invalidBytes (front : List Char) (valid size : Nat) : Outcome where
  program := ⟨[], [], ⟨0, size⟩⟩
  diagnostics :=
    [{ kind := .invalidInput
       severity := .error
       message := invalidByteMessage valid
       span := ⟨valid, size⟩
       position := positionAt front valid }]

/-- **Parses bytes.** -/
def parseBytes (bytes : ByteArray) : Outcome :=
  let (text, valid) := decodePrefix bytes
  if valid = bytes.size then parse text
  else invalidBytes text valid bytes.size

/-! ## The record of a parse -/

/-- **The decisions taken** in parsing a script. -/
def parseEvents (options : Options) (table : OperatorTable)
    (source : List Char) : List Event :=
  (runScript source options table).2.events.toList

end ScriptTree
