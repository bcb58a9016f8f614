import ScriptTree.Parse.Operand

/-!
# Expressions

An expression is an operand with operators folded onto it for as long as
they bind tightly enough. What each token means as an operator, how
tightly it binds and how it groups comes from the table; what node it
makes is decided here.

The right operand of an operator is an expression with a limit of its
own, so an operator too loose for it is left to the fold around.
-/

namespace ScriptTree.Parse

open ScriptTree.Action

variable (g : Grammar)

/-! ## Targets -/

/-- An expression replaced by an error node, with a problem reported. -/
def refuse (error : ParseError) (e : Expression) : Action Expression := do
  reportError .recoverable error
  return .error (← errorNode e.span)

/-- **The target of an assignment.** What cannot be assigned to becomes an
error node, and the assignment goes on. -/
def assignmentTarget (e : Expression) : Action Expression := do
  if e.isAssignmentTarget || e.isError then return e
  else refuse (.invalidAssignmentTarget e.span) e

/-- Whether something can be deleted. -/
def isDeleteTarget : Expression → Bool
  | .member .. | .subscript .. => true
  | _ => false

/-- **The operand of a deletion**, which is mended in the same way. -/
def deleteTarget (e : Expression) : Action Expression := do
  if isDeleteTarget e || e.isError then return e
  else refuse (.invalidDeleteTarget e.span) e

/-! ## Operators before an operand -/

/-- **What an operator sign makes of the operand behind it.** A sign that
is no operator of that kind cannot be used so, whatever the table says. -/
def applyBefore (token : Token) (argument : Expression) :
    Parse Expression := do
  let span : Span := ⟨token.span.start, argument.span.stop⟩
  match token.kind with
  | .keyword .kwNew => return .newObject argument span
  | .keyword .kwAwait => return .await argument span
  | .keyword .kwDelete =>
    return .unary .delete (← deleteTarget argument) span
  | .keyword .kwTypeof => return .unary .typeOf argument span
  | .keyword .kwVoid => return .unary .void argument span
  | .punctuator .not => return .unary .not argument span
  | .punctuator .tilde => return .unary .bitwiseNot argument span
  | .punctuator .minus => return .unary .minus argument span
  | .punctuator .plus => return .unary .plus argument span
  | .punctuator .plusPlus => return .update .increment true argument span
  | .punctuator .minusMinus => return .update .decrement true argument span
  | _ => throw (.ofToken "expression" token)

/-- **An operand**, with the operators in front of it. -/
def operand : Parse Expression := do
  let token ← current
  match (← read).table.beforeOperand? token.kind with
  | some info =>
    if info.fixity = .before then
      discard advance
      applyBefore token (← g.expression info.precedence.tighter)
    else
      primary g
  | none => primary g

/-! ## Operators behind an operand -/

/-- The operator a mark stands for between two operands. -/
def binaryOperator? : Punctuator → Option BinaryOperator
  | .andAnd => some .and
  | .orOr => some .or
  | .plus => some .add
  | .minus => some .sub
  | .star => some .mul
  | .slash => some .div
  | .percent => some .mod
  | .and => some .bitAnd
  | .or => some .bitOr
  | .xor => some .bitXor
  | .ltLt => some .leftShift
  | .gtGt => some .rightShift
  | .lt => some .lt
  | .ltEq => some .ltEq
  | .gt => some .gt
  | .gtEq => some .gtEq
  | .eqEq => some .eq
  | .eqEqEq => some .strictEq
  | .notEq => some .notEq
  | .notEqEq => some .strictNotEq
  | _ => none

/-- The assignment that computes a mark stands for. -/
def compoundOperator? : Punctuator → Option CompoundOperator
  | .plusEq => some .add
  | .minusEq => some .sub
  | .starEq => some .mul
  | .slashEq => some .div
  | _ => none

/-- The operation of two operands, which spans both. -/
def binaryOf (operator : BinaryOperator) (left right : Expression) :
    Expression :=
  .binary operator left right (left.span.cover right.span)

/-- The arguments of a call, and the parenthesis behind them. -/
def callArguments : Parse (List Expression) := do
  let arguments ← separated .argument .rParen (assignment g)
  discard (expectPunctuator .rParen)
  return arguments

/-- **What an operator sign makes of the operand before it.** Calls and
accesses read what belongs to them. -/
def applyAfter (left : Expression) (token : Token) : Parse Expression := do
  let start := left.span.start
  match token.kind with
  | .punctuator .plusPlus =>
    return .update .increment false left ⟨start, token.span.stop⟩
  | .punctuator .minusMinus =>
    return .update .decrement false left ⟨start, token.span.stop⟩
  | .punctuator .lParen =>
    let arguments ← g.arguments
    return .call left arguments (← spanFrom start)
  | .punctuator .dot =>
    let property ← propertyName
    return .member left property ⟨start, property.span.stop⟩
  | .punctuator .lBracket =>
    let index ← g.bracketed .subscriptIndex .rBracket
    discard (expectPunctuator .rBracket)
    return .subscript left index (← spanFrom start)
  | _ => throw (.ofToken "operator" token)

/-- **What an operator mark makes of two operands**, the first of which
has been read. The operand behind it binds at least as tightly as
`right`. -/
def applyMark (left : Expression) (token : Token) (p : Punctuator)
    (right : Precedence) : Parse Expression := do
  let start := left.span.start
  match p with
  | .comma =>
    let second ← g.expression right
    return .sequence left second (left.span.cover second.span)
  | .assign =>
    let target ← assignmentTarget left
    let value ← g.expression right
    return .assignment target value ⟨start, value.span.stop⟩
  | .question =>
    let consequent ← g.consequent
    discard (expectPunctuator .colon)
    let alternate ← g.expression right
    return .conditional left consequent alternate
      ⟨start, alternate.span.stop⟩
  | _ =>
    match compoundOperator? p with
    | some operator =>
      let target ← assignmentTarget left
      let value ← g.expression right
      return .compoundAssignment operator target value
        ⟨start, value.span.stop⟩
    | none =>
      match binaryOperator? p with
      | some operator =>
        return binaryOf operator left (← g.expression right)
      | none => throw (.ofToken "operator" token)

/-- **Folds the current token, an operator, onto the operand before
it.** Of the reserved words one tests for a class; any other a table may
put here tests for membership. -/
def applyOperator (left : Expression) (info : OperatorInfo) :
    Parse Expression := do
  let token ← advance
  if info.fixity = .after then
    applyAfter g left token
  else
    match token.kind with
    | .punctuator p => applyMark g left token p info.rightOperand
    | .keyword .kwInstanceof =>
      return binaryOf .instanceOf left (← g.expression info.rightOperand)
    | _ => return binaryOf .isIn left (← g.expression info.rightOperand)

/-! ## The fold -/

/-- **The operator at the current token**, if one binding at least as
tightly as `min` may be folded there. A line break that matters ends the
expression, and so does `in` where it is no operator. -/
def operatorAt? (min : Precedence) : Action (Option OperatorInfo) := do
  let ctx ← read
  let s ← get
  if s.newlineBefore && ctx.newlinesMatter then return none
  else if s.current.isKeyword .kwIn && !ctx.allowIn then return none
  else
    match ctx.table.afterOperand? s.current.kind with
    | some info => return if info.precedence < min then none else some info
    | none => return none

/-- Folds operators onto an operand for as long as there are any. -/
def foldOperators (min : Precedence) : (turns : Nat) → Expression →
    Parse Expression
  | 0, left => return left
  | turns + 1, left => do
    match ← operatorAt? min with
    | some info =>
      foldOperators min turns (← applyOperator g left info)
    | none => return left

/-- **An expression** with no operator looser than `min`. -/
def expressionFrom (min : Precedence) : Parse Expression := do
  let left ← operand g
  foldOperators g min (← read).turns left

end ScriptTree.Parse
