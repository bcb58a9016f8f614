import ScriptTree.Operator.Standard
import ScriptTree.Tree.Node

/-!
# How tightly the parts of a tree bind

Every expression has a **level**, that of the operator it is made with,
and what is no operation binds most tightly of all. A tree shows how its
text groups by this: a part that binds more loosely than its place allows
could only have been grouped so by parentheses, and those are nodes of
their own.

Two things make this less simple than it sounds. An operator before its
operand may be followed by another one, however loose, since nothing
could come between the two. And a call or an access may follow an
increment, since nothing else is left to do about it.

An operation that ends with an operand is complete only when what follows
is too loose for that operand; `Expression.reach` is the level up to
which this has to be.
-/

namespace ScriptTree

/-! ## Levels -/

/-- The kind of the token the operator is written with. -/
def BinaryOperator.kind : BinaryOperator → TokenKind
  | and => .punctuator .andAnd
  | or => .punctuator .orOr
  | add => .punctuator .plus
  | sub => .punctuator .minus
  | mul => .punctuator .star
  | div => .punctuator .slash
  | mod => .punctuator .percent
  | bitAnd => .punctuator .and
  | bitOr => .punctuator .or
  | bitXor => .punctuator .xor
  | leftShift => .punctuator .ltLt
  | rightShift => .punctuator .gtGt
  | lt => .punctuator .lt
  | ltEq => .punctuator .ltEq
  | gt => .punctuator .gt
  | gtEq => .punctuator .gtEq
  | eq => .punctuator .eqEq
  | strictEq => .punctuator .eqEqEq
  | notEq => .punctuator .notEq
  | strictNotEq => .punctuator .notEqEq
  | instanceOf => .keyword .kwInstanceof
  | isIn => .keyword .kwIn

/-- **The level of an operator between two operands**, as the standard
table has it. -/
def BinaryOperator.level (operator : BinaryOperator) : Int :=
  match OperatorTable.standard.find? operator.kind .between with
  | some info => info.precedence.level
  | none => 14

/-- No such operator is as loose as a choice, or as tight as any operator
with one operand. -/
theorem BinaryOperator.level_bounds (operator : BinaryOperator) :
    2 ≤ operator.level ∧ operator.level ≤ 6 := by
  cases operator <;> decide

/-- The level of an operator before its operand. -/
def UnaryOperator.level : UnaryOperator → Int
  | typeOf | delete | void => 7
  | not | bitwiseNot => 8
  | minus | plus => 9

namespace Expression

/-- **How tightly an expression binds.** -/
def level : Expression → Int
  | sequence .. => -1
  | assignment .. | compoundAssignment .. => 0
  | conditional .. => 1
  | binary operator .. => operator.level
  | unary operator .. => operator.level
  | await .. => 7
  | update .. => 10
  | newObject .. => 11
  | call .. => 12
  | member .. | subscript .. => 13
  | _ => 14

/-- Whether the expression is an operator with the operand behind it. -/
def isPrefixForm : Expression → Bool
  | unary .. | await .. | newObject .. => true
  | update _ leads _ _ => leads
  | _ => false

/-- Whether the expression is an increment or a decrement with the sign
behind the operand. -/
def isPostfixUpdate : Expression → Bool
  | update _ leads _ _ => !leads
  | _ => false

/-- **An expression that may stand behind an operator of a level.** -/
def Follows (level : Int) (e : Expression) : Prop :=
  e.isPrefixForm = true ∨ level < e.level

/-- **An expression that may be called, or have its members accessed.** -/
def Opens (e : Expression) : Prop :=
  e.isPostfixUpdate = true ∨ 12 ≤ e.level

/-- **An expression with operands that bind as tightly as they must.** -/
def Ranked : Expression → Prop
  | binary operator left right _ =>
    operator.level ≤ left.level ∧ operator.level < right.level
  | sequence left _ _ => 0 ≤ left.level
  | assignment _ value _ | compoundAssignment _ _ value _ =>
    0 ≤ value.level
  | conditional test consequent alternate _ =>
    2 ≤ test.level ∧ 0 ≤ consequent.level ∧ 1 ≤ alternate.level
  | unary operator argument _ => argument.Follows operator.level
  | await argument _ => argument.Follows 7
  | newObject callee _ => callee.Follows 11
  | update _ true argument _ => argument.Follows 10
  | update _ false argument _ => 10 ≤ argument.level
  | call callee _ _ => callee.Opens
  | member owner _ _ | subscript owner _ _ => owner.Opens
  | _ => True

/-! ## Where an expression ends -/

/-- **How loose what follows an expression must be**: an operator of this
level or a tighter one would belong to its last operand. -/
def reach : Expression → Option Precedence
  | sequence .. => some .comma
  | assignment .. | compoundAssignment .. => some .assignment
  | conditional .. => some .choice
  | binary operator .. => some ⟨operator.level + 1⟩
  | unary operator .. => some ⟨operator.level + 1⟩
  | await .. => some ⟨8⟩
  | update _ leads _ _ => if leads then some ⟨11⟩ else none
  | newObject .. => some ⟨12⟩
  | _ => none

/-- **An operator of the level may follow the expression.** -/
def EndsBefore (level : Int) (e : Expression) : Prop :=
  ∀ p, e.reach = some p → level < p.level

variable {e : Expression}

/-- An expression binds about as tightly as its last operand must, and
none leaves a call to what follows it. -/
theorem reach_level_le {p : Precedence} (h : e.reach = some p) :
    p.level ≤ e.level + 1 ∧ p.level ≤ 12 := by
  cases e
  case binary operator _ _ _ =>
    have hbounds := operator.level_bounds
    cases h
    exact ⟨Int.le_refl _, show operator.level + 1 ≤ 12 by omega⟩
  case unary operator _ _ =>
    cases h
    cases operator <;> exact ⟨Int.le_refl _, of_decide_eq_true rfl⟩
  case update leads _ _ =>
    cases leads
    · exact nomatch h
    · cases h
      exact ⟨Int.le_refl _, of_decide_eq_true rfl⟩
  case sequence | assignment | compoundAssignment | conditional | await
      | newObject =>
    cases h
    exact ⟨of_decide_eq_true rfl, of_decide_eq_true rfl⟩
  all_goals exact nomatch h

/-- What does not end with an operand may be called. -/
theorem opens_of_reach (h : e.reach = none) : e.Opens := by
  cases e
  case update leads _ _ =>
    cases leads
    · exact .inl rfl
    · exact nomatch h
  case sequence | assignment | compoundAssignment | conditional | binary
      | unary | await | newObject =>
    exact nomatch h
  all_goals exact .inr (of_decide_eq_true rfl)

/-- An increment behind its operand binds as tightly as one before. -/
theorem level_of_isPostfixUpdate (h : e.isPostfixUpdate = true) :
    e.level = 10 := by
  cases e
  case update => rfl
  all_goals exact nomatch h

/-- Operators before an operand bind more tightly than those between
two. -/
theorem le_level_of_isPrefixForm (h : e.isPrefixForm = true) :
    7 ≤ e.level := by
  cases e
  case unary operator _ _ => cases operator <;> exact of_decide_eq_true rfl
  case await | newObject | update => exact of_decide_eq_true rfl
  all_goals exact nomatch h

/-- Behind a loose operator there is nothing as loose. -/
theorem Follows.lt_level {level : Int} (h : e.Follows level)
    (hlt : level < 7) : level < e.level :=
  h.elim (fun h => Int.lt_of_lt_of_le hlt (le_level_of_isPrefixForm h)) id

/-- **A left operand** binds as tightly as the operator behind it. -/
theorem EndsBefore.le_level {level : Int} (h : e.EndsBefore level)
    (hle : level ≤ 10) : level ≤ e.level := by
  cases hreach : e.reach with
  | some p =>
    have hlt := h p hreach
    have hp := (reach_level_le hreach).1
    omega
  | none =>
    rcases opens_of_reach hreach with hpostfix | hopens
    · rw [level_of_isPostfixUpdate hpostfix]
      exact hle
    · omega

/-- **What is called** may be. -/
theorem EndsBefore.opens {level : Int} (h : e.EndsBefore level)
    (hle : 12 ≤ level) : e.Opens := by
  cases hreach : e.reach with
  | some p =>
    have hlt := h p hreach
    have hp := (reach_level_le hreach).2
    omega
  | none => exact opens_of_reach hreach

/-- **A left operand of an operator that groups to the right** is no such
operation itself. -/
theorem EndsBefore.lt_level {level : Int} (h : e.EndsBefore level)
    (hlt : level < 2) : level < e.level := by
  by_cases hloose : e.level < 2
  · -- An expression as loose as this reaches as far as it binds.
    have hreach : e.reach = some ⟨e.level⟩ := by
      cases e
      case sequence | assignment | compoundAssignment | conditional => rfl
      case binary operator _ _ _ =>
        have hbounds := operator.level_bounds
        exact absurd hloose (show ¬operator.level < 2 by omega)
      case unary operator _ _ =>
        cases operator <;> exact absurd hloose (of_decide_eq_true rfl)
      all_goals exact absurd hloose (of_decide_eq_true rfl)
    exact h _ hreach
  · omega

end Expression

end ScriptTree
