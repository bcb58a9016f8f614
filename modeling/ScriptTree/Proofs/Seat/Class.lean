import ScriptTree.Proofs.Seat.Target

/-!
# Classes without a name

A class that is an operand has a name. Operators make operations of what
they have, so what stands in a seat is no class without a name, whatever
the operators are. What is left are the places that are no seats: a class
without a name is always the very thing that a statement exports. It may be
exported as the default of a module, and also as a declaration: both read
the class alike.
-/

namespace ScriptTree

namespace Expression

/-- **An expression with a name**, if it is a class. -/
def Named : Expression → Prop
  | classDef c => c.id?.isSome = true
  | _ => True

variable {e : Expression}

/-- What is no class has nothing to name. -/
theorem named_of_isClassOrSuper (h : e.isClassOrSuper = false) :
    e.Named := by
  cases e with
  | classDef => exact nomatch h
  | _ => trivial

/-- An operation is no class, and not `super` either. -/
theorem isClassOrSuper_of_isPrimary (h : e.isPrimary = false) :
    e.isClassOrSuper = false := by
  cases e with
  | classDef | super => exact nomatch h
  | _ => rfl

end Expression

open Expression

variable {C : Context → Prop} {g : Grammar}

namespace Parse

/-! ## Operands -/

/-- **What begins with a word of its own** and is a class or `super` begins
with the word for it. -/
theorem keywordOperand_isClassOrSuper {k : Keyword}
    (hsuper : k ≠ .kwSuper) (hclass : k ≠ .kwClass) :
    Gives C (keywordOperand g k) (fun e => e.isClassOrSuper = false) := by
  unfold keywordOperand
  split
  case h_2 => exact absurd rfl hsuper
  case h_7 =>
    exact .skip fun _ => (functionExpression_isOperand _ _).mono
      fun _ h => h.isClassOrSuper_eq_false
  case h_8 => exact absurd rfl hclass
  case h_9 => exact unexpected_gives _
  all_goals exact .skip fun _ => .pure rfl

/-- **A class that must have a name** has one. -/
theorem classDefinition_named :
    Gives C (classDefinition g false) (fun c => c.id?.isSome = true) := by
  have hname : Gives C (className false) (fun id? => id?.isSome = true) :=
    .ite nofun (fun _ => .skip fun _ => .pure rfl)
  exact .skip fun _ => hname.bind fun _ h => .skip fun _ => .skip fun _ =>
    .skip fun _ => .skip fun _ => .skip fun _ => .pure h

theorem keywordOperand_named (k : Keyword) :
    Gives C (keywordOperand g k) Named := by
  by_cases hclass : k = .kwClass
  · subst hclass
    exact classDefinition_named.bind fun _ h => .pure h
  by_cases hsuper : k = .kwSuper
  · subst hsuper
    exact .skip fun _ => .skip fun _ => .ite (fun _ => .pure trivial)
      (fun _ => unexpected_gives _)
  exact (keywordOperand_isClassOrSuper hsuper hclass).mono
    fun _ h => named_of_isClassOrSuper h

/-- **An operand without operators** has a name, if it is a class. -/
theorem primary_named : Gives C (primary g) Named := by
  refine .skip fun token => ?_
  split
  case h_1 =>
    exact nameOperand_isOperand.mono
      fun _ h => named_of_isClassOrSuper h.isClassOrSuper_eq_false
  case h_8 =>
    exact parenthesizedOrArrow_isOperand.mono
      fun _ h => named_of_isClassOrSuper h.isClassOrSuper_eq_false
  case h_9 | h_10 =>
    exact .skip fun _ => .skip fun _ => .skip fun _ => .skip fun _ =>
      .pure trivial
  case h_11 => exact keywordOperand_named _
  case h_12 => exact unexpected_gives _
  all_goals exact .skip fun _ => .pure trivial

theorem operand_named : Gives C (operand g) Named := by
  refine .skip fun _ => .skip fun _ => ?_
  split
  · refine .ite (fun _ => .skip fun _ => .skip fun _ => ?_)
      (fun _ => primary_named)
    exact (applyBefore_isPrimary _ _).mono fun _ h =>
      named_of_isClassOrSuper (isClassOrSuper_of_isPrimary h)
  · exact primary_named

end Parse

open Parse Node

/-- **A class in a fold has a name.** -/
theorem Folded.named {min : Precedence} {ctx : Context} {s t : State}
    {e : Expression} (h : Folded g min ctx s e t) : e.Named := by
  cases h with
  | operand run =>
    exact operand_named (C := fun _ => True) ctx s e t trivial run
  | operator _ _ run =>
    exact named_of_isClassOrSuper (isClassOrSuper_of_isPrimary
      (applyOperator_isPrimary (C := fun _ => True) _ _ ctx _ e t
        trivial run))

section Tree

variable (options : Options) (table : OperatorTable) (source : List Char)

theorem named_settles :
    Expression.Settles (.ofSource source options table)
      (runScript source options table).2
      (fun seat e => seat ≠ .exported → e.Named) where
  error _ _ := trivial
  name _ _ := trivial
  plain h _ := h (by decide)
  exported _ h := absurd rfl h
  assigned _ _ _ h _ :=
    assignmentTarget_of (h (by decide)) fun _ => trivial
  deleted _ _ _ h _ := deleteTarget_of (h (by decide)) fun _ => trivial
  folded _ _ _ _ _ := fun _ _ _ hfold _ _ => hfold.named
  whole _ _ _ := fun _ _ _ hfold _ _ _ => hfold.named

/-- **A class without a name** is exported as it is: the statement around
it exports nothing else, be it as the default of a module or as a
declaration. -/
theorem parseWith_exported {n : Node} {c : Class}
    (hn : n ∈ (Node.program (parseWith options table source).program).all)
    (hc : .expression (.classDef c) ∈ n.children) (hid : c.id? = none) :
    n.exported? = some (.classDef c) := by
  have hseated := parseWith_seated options table source
    (named_settles options table source) n hn
  have hunnamed : ¬(Expression.classDef c).Named := by
    rw [Named, hid]
    exact nofun
  obtain ⟨seat, hnamed, -, hexported⟩ := hseated.seat hc
  exact hexported (by_contra fun hne => hunnamed (hnamed hne))

end Tree

/-- Whether a node is a class without a name. -/
def Node.isUnnamedClass : Node → Bool
  | expression (.classDef c) => c.id?.isNone
  | _ => false

/-- A class that is a declaration without a name, and no problem. -/
theorem parseWith_exported_class :
    let outcome := parseWith .standard .standard "export class {}".toList
    outcome.diagnostics = []
      ∧ ∃ n ∈ (Node.program outcome.program).all, ∃ c : Class,
        .expression (.classDef c) ∈ n.children ∧ c.id? = none
          ∧ n.exported? = some (.classDef c) := by
  intro outcome
  have hany : (Node.program outcome.program).all.any (fun n =>
      n.children.any Node.isUnnamedClass) = true := by
    decide +kernel
  obtain ⟨n, hn, hany⟩ := List.any_eq_true.1 hany
  obtain ⟨m, hm, hid⟩ := List.any_eq_true.1 hany
  unfold Node.isUnnamedClass at hid
  split at hid
  · rename_i c
    have hid := Option.isNone_iff_eq_none.1 hid
    exact ⟨by decide +kernel, n, hn, c, hm, hid,
      parseWith_exported _ _ _ hn hm hid⟩
  · cases hid

end ScriptTree
