import ScriptTree.Parse.Loop
import ScriptTree.Parse.Module

/-!
# Statements

A statement is known by its first token. What begins with no word or mark
of its own is an expression.
-/

namespace ScriptTree.Parse

open ScriptTree.Action

variable (g : Grammar)

/-- **Statements in braces.** -/
def blockFrom : Parse Block := do
  let opening ← expectPunctuator .lBrace
  let body ← statementList g .brace
  discard (expectPunctuator .rBrace)
  return ⟨body, ← spanFrom opening.span.start⟩

/-- The name for an exception, in parentheses. -/
def catchParameter? : Parse (Option Identifier) := do
  if ← eat .lParen then
    let param ← g.catchParameter
    discard (expectPunctuator .rParen)
    return some param
  else return none

/-- What is done about an exception. -/
def catchClause? : Parse (Option CatchClause) := do
  if ← atKeyword .kwCatch then
    let start := (← advance).span.start
    let param? ← catchParameter? g
    let body ← g.block
    return some ⟨param?, body, ← spanFrom start⟩
  else return none

/-- What is done in any case. -/
def finallyBlock? : Parse (Option Block) := do
  if ← atKeyword .kwFinally then
    discard advance
    return some (← g.block)
  else return none

/-- **A block with what is done about exceptions.** -/
def tryStatement : Parse Statement := do
  let start := (← advance).span.start
  let body ← g.block
  let handler? ← catchClause? g
  let finalizer? ← finallyBlock? g
  return .tryBlock body handler? finalizer? (← spanFrom start)

/-- **The way out of a loop**, or to its next turn. -/
def jumpStatement (make : Span → Statement) : Parse Statement := do
  let start := (← advance).span.start
  terminator true
  return make (← spanFrom start)

/-- The value behind a word, if the statement does not end there. -/
def optionalValue : Parse (Option Expression) := do
  if ← atStatementEnd then return none
  else return some (← expression g)

/-- **A value handed out**, or none. -/
def valueStatement (make : Option Expression → Span → Statement) :
    Parse Statement := do
  let start := (← advance).span.start
  let argument? ← optionalValue g
  terminator true
  return make argument? (← spanFrom start)

/-- **An exception.** -/
def throwStatement : Parse Statement := do
  let start := (← advance).span.start
  let argument ← expression g
  terminator true
  return .throwValue argument (← spanFrom start)

/-- What a reserved word begins where a statement is expected. -/
def keywordStatement (k : Keyword) : Parse Statement :=
  match k with
  | .kwExport => exportStatement g
  | .kwImport => importStatement g
  | .kwVar | .kwLet | .kwConst => declarationStatement g
  | .kwIf => conditionalStatement g
  | .kwSwitch => switchStatement g
  | .kwFor => forStatement g
  | .kwWhile => whileStatement g
  | .kwDo => doStatement g
  | .kwTry => tryStatement g
  | .kwBreak => jumpStatement .breakLoop
  | .kwContinue => jumpStatement .continueLoop
  | .kwReturn => valueStatement g .returnValue
  | .kwYield => valueStatement g .yieldValue
  | .kwThrow => throwStatement g
  | _ => expressionStatement g

/-- **A statement**, by its first token. -/
def statementFrom : Parse Statement := do
  match (← current).kind with
  | .keyword k => keywordStatement g k
  | .punctuator .lBrace => return .block (← g.block)
  | .punctuator .semicolon => return .empty (← advance).span
  | _ => expressionStatement g

end ScriptTree.Parse
