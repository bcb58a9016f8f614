import ScriptTree.Parse.Statement

/-!
# The grammar of so many levels

`Grammar.levels n` reads scripts whose constructs nest at most `n` deep.
Each of its productions is the one of that name, run over the grammar of
one level less; a production between brackets is run in the context of
brackets. This is where the recursion of the grammar is tied, and it is
recursion on the number of levels.

The levels that have been entered are counted as well (`Parse.guarded`).
No production looks at their number; it is there to tell that no level is
left more often than it is entered.

A production is made only when it is asked for, so that a limit no script
ever reaches costs nothing.
-/

namespace ScriptTree

namespace Parse

variable {α : Type}

/-- **A production between brackets**, which counts as a level. -/
def inBrackets (production : Parse α) : Parse α :=
  guarded (withReader Context.inBrackets production)

end Parse

/-- **The grammar of a number of levels.** -/
def Grammar.levels : Nat → Grammar
  | 0 => .exhausted
  | n + 1 =>
    { statement :=
        Parse.guarded fun ctx => Parse.statementFrom (levels n) ctx
      block := Parse.guarded fun ctx => Parse.blockFrom (levels n) ctx
      expression := fun min =>
        Parse.guarded fun ctx => Parse.expressionFrom (levels n) min ctx
      bracketed := fun point closer =>
        Parse.inBrackets fun ctx =>
          Parse.tolerant point (Parse.expressionBefore (levels n) closer) ctx
      consequent :=
        Parse.inBrackets fun ctx => Parse.assignment (levels n) ctx
      arguments :=
        Parse.inBrackets fun ctx => Parse.callArguments (levels n) ctx
      elements :=
        Parse.inBrackets fun ctx => Parse.arrayElements (levels n) ctx
      members :=
        Parse.inBrackets fun ctx => Parse.objectMembers (levels n) ctx
      methods :=
        Parse.inBrackets fun ctx => Parse.classMethods (levels n) ctx
      parameters := Parse.inBrackets Parse.parameterNames
      forHeader :=
        Parse.inBrackets fun ctx => Parse.forHeader (levels n) ctx
      catchParameter := Parse.inBrackets Parse.identifier
      importSpecifiers :=
        Parse.inBrackets (Parse.specifiers Parse.importSpecifier)
      exportSpecifiers :=
        Parse.inBrackets (Parse.specifiers Parse.exportSpecifier) }

end ScriptTree
