import ScriptTree.Parse.Recovery

/-!
# One level of the grammar

Some productions count as a level of nesting: expressions, statements,
blocks, and all regions between brackets. A `Grammar` holds them as they
are seen from the level above. Every other production is defined over a
`Grammar` and reaches deeper constructs only through it.

The nesting limit is therefore not a counter that every production has to
keep right. The grammar of no levels refuses everything
(`Grammar.exhausted`); the grammar of one more level runs each production
over the grammar of one less. A production cannot go deeper than the
levels it was given, and all of them end for that reason.
-/

namespace ScriptTree

/-- **The header of a `for` loop.** -/
inductive ForHeader where
  /-- What to do first, when to go on, what to do after each turn. -/
  | counting (init? : Option ForInit) (test? update? : Option Expression)
  /-- What to set, and the object whose keys it is set to. -/
  | overKeys (kind? : Option VarKind) (left right : Expression)
  /-- What to set, and the collection whose values it is set to. -/
  | overValues (kind? : Option VarKind) (left right : Expression)

/-- **The productions that count as a level**, seen from the level
above. -/
structure Grammar where
  /-- A statement. -/
  statement : Parse Statement
  /-- Statements in braces. -/
  block : Parse Block
  /-- An expression with no operator looser than the given level. -/
  expression : Precedence → Parse Expression
  /-- The expression between brackets, up to the closing one, at the given
  tolerant point. -/
  bracketed : TolerantPoint → Punctuator → Parse Expression
  /-- The first branch of a conditional expression. -/
  consequent : Parse Expression
  /-- The arguments of a call and the parenthesis behind them. -/
  arguments : Parse (List Expression)
  /-- The elements of an array. -/
  elements : Parse (List Expression)
  /-- The members of an object. -/
  members : Parse (List ObjectMember)
  /-- The methods of a class. -/
  methods : Parse (List Method)
  /-- The parameters of a function and the parenthesis behind them. -/
  parameters : Parse (List Identifier)
  /-- The header of a `for` loop. -/
  forHeader : Parse ForHeader
  /-- The name for an exception. -/
  catchParameter : Parse Identifier
  /-- The names of an import list. -/
  importSpecifiers : Parse (List ImportSpecifier)
  /-- The names of an export list. -/
  exportSpecifiers : Parse (List ExportSpecifier)

/-- **The grammar of no levels**: whatever would be one more is refused. -/
def Grammar.exhausted : Grammar where
  statement := Parse.tooDeep
  block := Parse.tooDeep
  expression _ := Parse.tooDeep
  bracketed _ _ := Parse.tooDeep
  consequent := Parse.tooDeep
  arguments := Parse.tooDeep
  elements := Parse.tooDeep
  members := Parse.tooDeep
  methods := Parse.tooDeep
  parameters := Parse.tooDeep
  forHeader := Parse.tooDeep
  catchParameter := Parse.tooDeep
  importSpecifiers := Parse.tooDeep
  exportSpecifiers := Parse.tooDeep

namespace Parse

open ScriptTree.Action

variable (g : Grammar)

/-! ## The productions in common use -/

/-- An expression, the comma operator included. -/
def expression : Parse Expression := g.expression .lowest

/-- An expression without a comma of its own. -/
def assignment : Parse Expression := g.expression .assignment

/-- **A statement.** It is on record even if it is refused for its
depth. -/
def statement : Parse Statement := do
  let token ← current
  record (.statement token.span.start token.kind)
  g.statement

/-- Whether a token shows that the closing bracket of a region is
missing, in which case the construct around the region will say so. -/
def closerIsMissing (token : Token) : Bool :=
  token.isEof || token.isPunctuator .lBrace || token.kind.isCloser

/-- **An expression up to a given mark**, which is left to be read.
Anything else behind the expression is an error, so that the tolerant
point around it passes over it. -/
def expressionBefore (closer : Punctuator) : Parse Expression := do
  let e ← expression g
  let token ← current
  if token.isPunctuator closer || closerIsMissing token then
    return e
  else
    unexpected (inQuotes closer.spelling)

/-- An expression in parentheses, as conditions are. -/
def condition : Parse Expression := do
  discard (expectPunctuator .lParen)
  let e ← g.bracketed .parenthesized .rParen
  discard (expectPunctuator .rParen)
  return e

/-- Parameters in parentheses. -/
def parameterList : Parse (List Identifier) := do
  discard (expectPunctuator .lParen)
  g.parameters

/-! ## Statement lists -/

/-- The loop of `statementList`, with the statements so far, the last of
them first. -/
def statementsFrom : (turns : Nat) → List Statement →
    Action (List Statement)
  | 0, found => return found.reverse
  | turns + 1, found => do
    if (← get).aborted || (← atListEnd) then
      return found.reverse
    else
      let start ← here
      match ← attempt (statement g) with
      | .ok s => statementsFrom turns (s :: found)
      | .error error =>
        match ← abandon start error with
        | some s => statementsFrom turns (s :: found)
        | none => statementsFrom turns found

/-- **Statements up to what closes their list.** It never fails: a
statement that cannot be read becomes an error statement. -/
def statementList (listEnd : ListEnd) : Action (List Statement) :=
  withReader (·.inList listEnd) do
    statementsFrom g (← read).turns []

end Parse

end ScriptTree
