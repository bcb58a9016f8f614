import ScriptTree.Parse.Expression
import ScriptTree.Proofs.Words.Scan

/-!
# Expressions of words

Names, numbers, strings and marks that are operators between two operands,
one behind the other in any order, need not be an expression. What an
expression takes of them is a front of theirs, and if it takes only a part,
an operand is next that is not joined to it by an operator; or it fails,
where an operand was expected and there is none.

Which of this happens depends on the words alone and on nothing behind them
(`Word.closes`): a look at each word in turn shows whether an operand is
expected next.
-/

namespace ScriptTree

/-! ## Words in an expression -/

namespace Word

/-- Whether the word is an operand: a name, a number or a string. -/
def isOperand (w : Word) : Bool :=
  match w.kind with
  | .identifier | .number | .string => true
  | _ => false

/-- **The operator a word is between two operands**, if it is a mark. The
slash is left out: where an operand is expected it opens a regular
expression. -/
def operator? (w : Word) : Option BinaryOperator :=
  match w.kind with
  | .punctuator .slash => none
  | .punctuator p => Parse.binaryOperator? p
  | _ => none

/-- The sign a word is before an operand. -/
def sign? (w : Word) : Option UnaryOperator :=
  match w.kind with
  | .punctuator .plus => some .plus
  | .punctuator .minus => some .minus
  | _ => none

/-- **A piece of an expression**: an operand or an operator. -/
def isPiece (w : Word) : Bool := w.isOperand || w.operator?.isSome

/-- The node of an operand at an offset. -/
def operand (w : Word) (start : Nat) : Expression :=
  match w.kind with
  | .number => .literal ⟨.number, w.spelling, w.span start⟩
  | .string => .literal ⟨.string, w.spelling, w.span start⟩
  | _ => .identifier ⟨w.spelling, w.span start⟩

/-- **Whether words are one expression**, or the rest of one. What is
expected first is an operand, or else whatever may be behind one. -/
def closes : (expecting : Bool) → List Word → Bool
  | expecting, [] => !expecting
  | true, w :: ws =>
    if w.isOperand then closes false ws else w.sign?.isSome && closes true ws
  | false, w :: ws => !w.isOperand && closes true ws

variable {w : Word} {ws ws' : List Word} {o : BinaryOperator}

theorem closes_operand (h : w.isOperand = true) :
    closes true (w :: ws) = closes false ws := by
  rw [closes, if_pos h]

theorem closes_sign (h : w.isOperand = false) :
    closes true (w :: ws) = (w.sign?.isSome && closes true ws) := by
  rw [closes, if_neg (Bool.eq_false_iff.1 h)]

theorem closes_operator (h : w.isOperand = false) :
    closes false (w :: ws) = closes true ws := by
  rw [closes, h]
  rfl

theorem closes_apart (h : w.isOperand = true) :
    closes false (w :: ws) = false := by
  rw [closes, h]
  rfl

/-- An operator is no operand, and no word. -/
theorem of_operator? (h : w.operator? = some o) :
    w.isOperand = false ∧ w.kind = o.tokenKind
      ∧ ∀ k, w.kind ≠ .keyword k := by
  unfold operator? at h
  unfold isOperand
  split at h
  · exact nomatch h
  · rename_i p _ hkind
    rw [hkind]
    cases p <;> cases h <;> exact ⟨rfl, rfl, nofun⟩
  · exact nomatch h

/-- What is an operand is no operator. -/
theorem operator?_eq_none (h : w.isOperand = true) : w.operator? = none := by
  refine Option.eq_none_iff_forall_ne_some.2 fun o ho => ?_
  exact absurd (h.symm.trans (of_operator? ho).1) nofun

/-- A piece that is no operand is an operator. -/
theorem exists_operator (h : w.isPiece = true) (hw : w.isOperand = false) :
    ∃ o, w.operator? = some o := by
  unfold isPiece at h
  rw [hw, Bool.false_or] at h
  exact Option.isSome_iff_exists.1 h

/-- **Words that leave a name alone**: none of them can make a function of
a name before it. -/
def isPlain (w : Word) : Bool :=
  match w.kind with
  | .keyword _ | .punctuator .lParen | .punctuator .arrow => false
  | _ => true

theorem isPlain_of_isPiece (h : w.isPiece = true) : w.isPlain = true := by
  unfold isPlain
  split
  · rename_i k hkind
    simp [isPiece, isOperand, operator?, hkind] at h
  · rename_i hkind
    simp [isPiece, isOperand, operator?, hkind, Parse.binaryOperator?] at h
  · rename_i hkind
    simp [isPiece, isOperand, operator?, hkind, Parse.binaryOperator?] at h
  · rfl

/-- **What may be behind an expression** in a list: words of which the first
is a comma or the bracket that closes the list. -/
structure EndsItem (tail : List Word) : Prop where
  /-- The first of them. -/
  kindOf_eq : kindOf tail = .punctuator .comma
    ∨ kindOf tail = .punctuator .rBracket
  /-- All of them leave a name alone. -/
  isPlain : ∀ w ∈ tail, w.isPlain = true

theorem EndsItem.exists_cons {tail : List Word} (h : EndsItem tail) :
    ∃ w ws, tail = w :: ws := by
  cases tail with
  | nil => exact absurd h.kindOf_eq nofun
  | cons w ws => exact ⟨w, ws, rfl⟩

/-- The end of the text leaves a name alone, too. -/
theorem kindOf_ne (h : ∀ w ∈ ws, w.isPlain = true) :
    (∀ k, kindOf ws ≠ .keyword k) ∧ kindOf ws ≠ .punctuator .lParen
      ∧ kindOf ws ≠ .punctuator .arrow := by
  cases ws with
  | nil => exact ⟨nofun, nofun, nofun⟩
  | cons w ws =>
    have hw := h w List.mem_cons_self
    unfold Word.isPlain at hw
    refine ⟨fun k hk => ?_, fun hk => ?_, fun hk => ?_⟩
    all_goals
      rw [show w.kind = _ from hk] at hw
      exact nomatch hw

end Word

open Word

/-- **An expression made of words**, the first of which is at an offset:
every word has its place in the expression. -/
inductive Expression.MadeOf : Nat → List Word → Expression → Prop where
  /-- A single operand. -/
  | operand {start : Nat} {w : Word} (h : w.isOperand = true) :
    MadeOf start [w] (w.operand start)
  /-- A sign before an expression. -/
  | sign {start : Nat} {w : Word} {operator : UnaryOperator}
    {ws : List Word} {e : Expression} (h : w.sign? = some operator)
    (argument : MadeOf (start + width [w]) ws e) :
    MadeOf start (w :: ws) (.unary operator e ⟨start, e.span.stop⟩)
  /-- An operator between two. -/
  | between {start : Nat} {w : Word} {operator : BinaryOperator}
    {ws ws' : List Word} {l r : Expression}
    (h : w.operator? = some operator) (left : MadeOf start ws l)
    (right : MadeOf (start + width (ws ++ [w])) ws' r) :
    MadeOf start (ws ++ w :: ws') (Parse.binaryOf operator l r)

namespace Expression.MadeOf

variable {start : Nat} {w : Word} {ws : List Word} {e : Expression}

theorem ne_nil (h : MadeOf start ws e) : ws ≠ [] := by
  cases h with
  | operand => exact List.cons_ne_nil _ _
  | sign => exact List.cons_ne_nil _ _
  | between => exact List.append_ne_nil_of_right_ne_nil _ (List.cons_ne_nil _ _)

theorem isError_eq (h : MadeOf start ws e) : e.isError = false := by
  cases h with
  | @operand _ w h =>
    unfold Word.operand
    split <;> rfl
  | sign | between => rfl

/-- **An operand alone** is just that. -/
theorem eq_operand (h : MadeOf start [w] e) : e = w.operand start := by
  generalize hws : [w] = ws at h
  cases h with
  | operand => rw [(List.cons.inj hws).1]
  | sign hsign argument =>
    exact absurd (List.cons.inj hws).2.symm argument.ne_nil
  | @between _ v o front back l r ho left right =>
    cases front with
    | nil => exact absurd rfl left.ne_nil
    | cons x front =>
      have hlength := congrArg List.length hws
      simp at hlength

/-- **The expression reaches from the first to the last of its words.** -/
theorem span_eq (h : MadeOf start ws e) :
    e.span = ⟨start, start + width ws - 1⟩ := by
  induction h with
  | @operand start w h =>
    have hspan : (w.operand start).span = w.span start := by
      unfold Word.operand
      split <;> rfl
    rw [hspan, width_singleton]
    rfl
  | @sign start w operator ws e h argument ih =>
    show Span.mk start e.span.stop = _
    rw [ih, width_cons w ws, width_singleton, Nat.add_assoc]
  | @between start w operator ws ws' l r h left right ihl ihr =>
    show l.span.cover r.span = _
    have hpos := width_pos ws left.ne_nil
    have hpos' := width_pos ws' right.ne_nil
    rw [ihl, ihr]
    simp only [Span.cover, width_append, width_cons, width_nil,
      Span.mk.injEq]
    omega

end Expression.MadeOf

end ScriptTree
