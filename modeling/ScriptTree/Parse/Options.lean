/-!
# Parsing options
-/

namespace ScriptTree

/-- **How a script is to be parsed.** -/
structure Options where
  /-- Whether to go on after an error. Otherwise the first one ends the
  parse. -/
  tolerant : Bool
  /-- Whether the last statement of a list may do without its
  terminator. -/
  allowTrailingStatement : Bool
  /-- Whether to keep the comments. -/
  collectComments : Bool
  /-- How many diagnostics to keep; the ones after them are dropped. -/
  maxDiagnostics : Nat
  /-- How deep constructs may nest. Each statement, block, expression and
  bracketed region is one level. -/
  maxNestingDepth : Nat
deriving Repr, DecidableEq

/-- The options of a caller who asks for nothing special. -/
def Options.standard : Options where
  tolerant := true
  allowTrailingStatement := true
  collectComments := true
  maxDiagnostics := 100
  maxNestingDepth := 128

end ScriptTree
