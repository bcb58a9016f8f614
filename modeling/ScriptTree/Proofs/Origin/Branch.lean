import ScriptTree.Proofs.Origin.Statement

/-!
# The nearest condition takes the other branch

In `if (a) if (b) c; else d` the other branch belongs to the inner
condition. In a tree this means that the consequent of a condition with two
branches does not end with a condition that has only one: whichever
statement stands last in it, the word for the other branch came right behind
that statement, and a condition with one branch would have taken it.

Which statement stands last is a matter of the tree (`Statement.EndsIn`);
what comes behind it is known from the run. A statement that ends with an
open condition is not followed by the word (`Statement.TakesElse`), whether
the condition is the statement itself, its other branch, or the body of a
loop. This goes for bodies with errors in them too, since a statement that
was mended ends with no condition.
-/

namespace ScriptTree

/-! ## How statements end -/

namespace Statement

/-- **The statement a statement ends with**: the other branch of a condition
that has one, or the body of a loop. -/
def trailing? : Statement → Option Statement
  | conditional _ _ alternate? _ => alternate?
  | whileLoop _ body _ | forLoop _ _ _ body _ | forIn _ _ _ body _
  | forOf _ _ _ body _ => some body
  | _ => none

/-- **An open condition**: it has no other branch. -/
def isOpen : Statement → Bool
  | conditional _ _ none _ => true
  | _ => false

/-- **The statements at the end of a statement**, the statement itself among
them. -/
inductive EndsIn : Statement → Statement → Prop where
  /-- It is the statement itself. -/
  | here (x : Statement) : EndsIn x x
  /-- It is at the end of the statement it ends with. -/
  | behind {x y z : Statement} (trails : x.trailing? = some y)
      (ends : EndsIn y z) : EndsIn x z

/-- **A condition with two branches** has a consequent that does not end
with an open one. -/
def ElseIsNearest : Statement → Prop
  | conditional _ consequent (some _) _ =>
    ∀ y, consequent.EndsIn y → y.isOpen = false
  | _ => True

/-- **A statement that would have taken another branch** had there been one
behind it. -/
def TakesElse (x : Statement) (t : State) : Prop :=
  ∀ y, x.EndsIn y → y.isOpen = true → t.current.isKeyword .kwElse = false

/-- A statement that ends with no other and is no open condition. -/
def EndsItself (x : Statement) : Prop :=
  x.trailing? = none ∧ x.isOpen = false

variable {x y : Statement} {t : State}

/-- **Only its own end** is the end of such a statement. -/
theorem EndsItself.takesElse (h : x.EndsItself) : x.TakesElse t := by
  intro z hz hopen
  cases hz with
  | here => exact absurd (h.2.symm.trans hopen) Bool.noConfusion
  | behind trails => exact nomatch h.1.symm.trans trails

theorem EndsItself.elseIsNearest (h : x.EndsItself) : x.ElseIsNearest := by
  obtain ⟨htrailing, -⟩ := h
  cases x with
  | conditional test consequent alternate? span =>
    obtain rfl : alternate? = none := htrailing
    trivial
  | _ => trivial

/-- **A statement ends as the one it ends with does.** -/
theorem TakesElse.of_trailing (h : x.trailing? = some y)
    (hopen : x.isOpen = false) (hy : y.TakesElse t) : x.TakesElse t := by
  intro z hz hzopen
  cases hz with
  | here => exact absurd (hopen.symm.trans hzopen) Bool.noConfusion
  | behind trails ends =>
    obtain rfl := Option.some.inj (h.symm.trans trails)
    exact hy z ends hzopen

/-- **The word for another branch** behind a statement shows that no open
condition is at its end. -/
theorem TakesElse.isOpen_eq_false (h : x.TakesElse t)
    (helse : t.current.isKeyword .kwElse = true) :
    ∀ y, x.EndsIn y → y.isOpen = false := by
  intro y hy
  refine Bool.eq_false_iff.2 fun hopen => ?_
  exact absurd (helse.symm.trans (h y hy hopen)) Bool.noConfusion

end Statement

namespace Parse

open ScriptTree.Action Statement

variable {g : Grammar} {ctx : Context} {s t : State} {x : Statement}
  {C : Context → Prop}

/-! ## Statements that end with no other -/

theorem declarationStatement_endsItself :
    Gives C (declarationStatement g) EndsItself :=
  .skip fun _ => .skip fun _ => .skip fun _ => .skip fun _ => .pure ⟨rfl, rfl⟩

theorem expressionStatement_endsItself :
    Gives C (expressionStatement g) EndsItself :=
  .skip fun _ => .skip fun _ => .skip fun _ => .skip fun _ => .pure ⟨rfl, rfl⟩

theorem switchStatement_endsItself :
    Gives C (switchStatement g) EndsItself :=
  .skip fun _ => .skip fun _ => .skip fun _ => .skip fun _ => .skip fun _ =>
    .skip fun _ => .skip fun _ => .pure ⟨rfl, rfl⟩

theorem doStatement_endsItself : Gives C (doStatement g) EndsItself :=
  .skip fun _ => .skip fun _ => .skip fun _ => .skip fun _ => .skip fun _ =>
    .skip fun _ => .pure ⟨rfl, rfl⟩

theorem tryStatement_endsItself : Gives C (tryStatement g) EndsItself :=
  .skip fun _ => .skip fun _ => .skip fun _ => .skip fun _ => .skip fun _ =>
    .pure ⟨rfl, rfl⟩

theorem jumpStatement_endsItself {make : Span → Statement}
    (hmake : ∀ span, (make span).EndsItself) :
    Gives C (jumpStatement make) EndsItself :=
  .skip fun _ => .skip fun _ => .skip fun _ => .pure (hmake _)

theorem valueStatement_endsItself
    {make : Option Expression → Span → Statement}
    (hmake : ∀ e? span, (make e? span).EndsItself) :
    Gives C (valueStatement g make) EndsItself :=
  .skip fun _ => .skip fun _ => .skip fun _ => .skip fun _ => .pure (hmake _ _)

theorem throwStatement_endsItself : Gives C (throwStatement g) EndsItself :=
  .skip fun _ => .skip fun _ => .skip fun _ => .skip fun _ => .pure ⟨rfl, rfl⟩

theorem importStatement_endsItself :
    Gives C (importStatement g) EndsItself :=
  .skip fun _ => .skip fun _ => .skip fun _ => .skip fun _ => .skip fun _ =>
    .pure ⟨rfl, rfl⟩

theorem exportStatement_endsItself :
    Gives C (exportStatement g) EndsItself :=
  .skip fun _ => .skip fun _ => .skip fun _ => .pure ⟨rfl, rfl⟩

/-- **A statement is a condition, a loop with a body behind it, or ends with
no other.** -/
theorem statementFrom_cases (h : statementFrom g ctx s = (.ok x, t)) :
    x.EndsItself ∨ conditionalStatement g ctx s = (.ok x, t)
      ∨ whileStatement g ctx s = (.ok x, t)
      ∨ forStatement g ctx s = (.ok x, t) := by
  have hplain : ∀ {p : Parse Statement} {Q : Prop},
      Gives (fun _ => True) p EndsItself → p ctx s = (.ok x, t) →
      x.EndsItself ∨ Q := fun hp h => .inl (hp ctx s x t trivial h)
  obtain ⟨token, u, hcurrent, h⟩ := of_bind_run h
  cases hcurrent
  generalize s.current.kind = kind at h
  split at h
  · unfold keywordStatement at h
    split at h
    · exact hplain exportStatement_endsItself h
    · exact hplain importStatement_endsItself h
    · exact hplain declarationStatement_endsItself h
    · exact hplain declarationStatement_endsItself h
    · exact hplain declarationStatement_endsItself h
    · exact .inr (.inl h)
    · exact hplain switchStatement_endsItself h
    · exact .inr (.inr (.inr h))
    · exact .inr (.inr (.inl h))
    · exact hplain doStatement_endsItself h
    · exact hplain tryStatement_endsItself h
    · exact hplain (jumpStatement_endsItself fun _ => ⟨rfl, rfl⟩) h
    · exact hplain (jumpStatement_endsItself fun _ => ⟨rfl, rfl⟩) h
    · exact hplain (valueStatement_endsItself fun _ _ => ⟨rfl, rfl⟩) h
    · exact hplain (valueStatement_endsItself fun _ _ => ⟨rfl, rfl⟩) h
    · exact hplain throwStatement_endsItself h
    · exact hplain expressionStatement_endsItself h
  · exact hplain (.skip fun _ => .pure ⟨rfl, rfl⟩) h
  · exact hplain (.skip fun _ => .pure ⟨rfl, rfl⟩) h
  · exact hplain expressionStatement_endsItself h

/-! ## Statements that end with another -/

/-- **Another branch is read** exactly where the word for it stands. -/
theorem alternative?_cases {x? : Option Statement}
    (h : alternative? g ctx s = (.ok x?, t)) :
    (x? = none ∧ t = s ∧ s.current.isKeyword .kwElse = false)
      ∨ ∃ x u, x? = some x ∧ s.current.isKeyword .kwElse = true
        ∧ statement g ctx u = (.ok x, t) := by
  change (ite (s.current.isKeyword .kwElse = true) _ _ : Parse _) ctx s = _ at h
  split at h
  · rename_i helse
    obtain ⟨_, u, -, h⟩ := of_bind_run h
    obtain ⟨x, v, hrun, h⟩ := of_bind_run h
    cases h
    exact .inr ⟨x, u, rfl, helse, hrun⟩
  · rename_i helse
    cases h
    exact .inl ⟨rfl, rfl, Bool.eq_false_iff.2 helse⟩

theorem conditionalStatement_cases
    (h : conditionalStatement g ctx s = (.ok x, t)) :
    ∃ test consequent alternate? span u v,
      x = .conditional test consequent alternate? span
        ∧ statement g ctx u = (.ok consequent, v)
        ∧ alternative? g ctx v = (.ok alternate?, t) := by
  obtain ⟨_, _, -, h⟩ := of_bind_run h
  obtain ⟨test, u, -, h⟩ := of_bind_run h
  obtain ⟨consequent, v, hconsequent, h⟩ := of_bind_run h
  obtain ⟨alternate?, w, halternate, h⟩ := of_bind_run h
  cases h
  exact ⟨test, consequent, alternate?, _, u, v, rfl, hconsequent, halternate⟩

theorem whileStatement_cases (h : whileStatement g ctx s = (.ok x, t)) :
    ∃ test body span u, x = .whileLoop test body span
      ∧ statement g ctx u = (.ok body, t) := by
  obtain ⟨_, _, -, h⟩ := of_bind_run h
  obtain ⟨test, u, -, h⟩ := of_bind_run h
  obtain ⟨body, v, hbody, h⟩ := of_bind_run h
  cases h
  exact ⟨test, body, _, u, rfl, hbody⟩

theorem forStatement_cases (h : forStatement g ctx s = (.ok x, t)) :
    ∃ header body span u v w, x = loopOf header body span
      ∧ g.forHeader ctx u = (.ok header, v)
      ∧ statement g ctx w = (.ok body, t) := by
  obtain ⟨_, _, -, h⟩ := of_bind_run h
  obtain ⟨_, u, -, h⟩ := of_bind_run h
  obtain ⟨header, v, hheader, h⟩ := of_bind_run h
  obtain ⟨_, w, -, h⟩ := of_bind_run h
  obtain ⟨body, y, hbody, h⟩ := of_bind_run h
  cases h
  exact ⟨header, body, _, u, v, w, rfl, hheader, hbody⟩

/-- A `for` loop ends with its body. -/
theorem trailing?_loopOf (header : ForHeader) (body : Statement)
    (span : Span) : (loopOf header body span).trailing? = some body
      ∧ (loopOf header body span).isOpen = false
      ∧ (loopOf header body span).ElseIsNearest := by
  cases header <;> exact ⟨rfl, rfl, trivial⟩

variable (hg : ∀ {ctx s x t}, g.statement ctx s = (.ok x, t) → x.TakesElse t)

include hg

theorem statement_takesElse (h : statement g ctx s = (.ok x, t)) :
    x.TakesElse t := by
  obtain ⟨_, _, -, h⟩ := of_bind_run h
  obtain ⟨_, _, -, h⟩ := of_bind_run h
  exact hg h

/-- **A statement takes any other branch** behind it. -/
theorem statementFrom_takesElse (h : statementFrom g ctx s = (.ok x, t)) :
    x.TakesElse t := by
  rcases statementFrom_cases h with hends | h | h | h
  · exact hends.takesElse
  · obtain ⟨test, consequent, alternate?, span, u, v, rfl, -, h⟩ :=
      conditionalStatement_cases h
    rcases alternative?_cases h with ⟨rfl, rfl, helse⟩ | ⟨y, w, rfl, -, hy⟩
    · intro z hz _
      -- A condition without another branch is all that is at its end.
      cases hz with
      | here => exact helse
      | behind trails => exact nomatch trails
    · exact .of_trailing rfl rfl (statement_takesElse hg hy)
  · obtain ⟨test, body, span, u, rfl, hbody⟩ := whileStatement_cases h
    exact .of_trailing rfl rfl (statement_takesElse hg hbody)
  · obtain ⟨header, body, span, u, v, w, rfl, -, hbody⟩ :=
      forStatement_cases h
    obtain ⟨htrailing, hopen, -⟩ := trailing?_loopOf header body span
    exact .of_trailing htrailing hopen (statement_takesElse hg hbody)

/-- **The consequent of a condition with two branches** does not end with an
open one. -/
theorem statementFrom_elseIsNearest
    (h : statementFrom g ctx s = (.ok x, t)) : x.ElseIsNearest := by
  rcases statementFrom_cases h with hends | h | h | h
  · exact hends.elseIsNearest
  · obtain ⟨test, consequent, alternate?, span, u, v, rfl, hconsequent, h⟩ :=
      conditionalStatement_cases h
    rcases alternative?_cases h with ⟨rfl, -⟩ | ⟨y, w, rfl, helse, -⟩
    · trivial
    · exact (statement_takesElse hg hconsequent).isOpen_eq_false helse
  · obtain ⟨test, body, span, u, rfl, -⟩ := whileStatement_cases h
    trivial
  · obtain ⟨header, body, span, u, v, w, rfl, -⟩ := forStatement_cases h
    exact (trailing?_loopOf header body span).2.2

end Parse

open Parse in
/-- At each level of the grammar, statements take any other branch behind
them. -/
theorem Grammar.levels_takesElse (n : Nat) {ctx : Context} {s t : State}
    {x : Statement} (h : (levels n).statement ctx s = (.ok x, t)) :
    x.TakesElse t := by
  induction n generalizing ctx s t x with
  | zero => exact absurd h (tooDeep_gives (C := fun _ => True)
      (R := fun _ => False) ctx s x t trivial)
  | succ n ih =>
    have hrun : guarded (statementFrom (levels n)) ctx s = (.ok x, t) := h
    rw [guarded_run] at hrun
    obtain ⟨hanswer, rfl⟩ := Prod.mk.inj hrun
    -- Leaving the level, the parse stays before the same token.
    exact statementFrom_takesElse (s := s.enter)
      (t := (statementFrom (levels n) ctx s.enter).2) ih
      (Prod.ext hanswer rfl)

/-- **The nearest condition takes the other branch.** In every tree the
consequent of a condition with two branches does not end with a condition
that has only one. -/
theorem parseWith_elseIsNearest (options : Options) (table : OperatorTable)
    (source : List Char) :
    (Node.program (parseWith options table source).program).Everywhere
      (Node.Stated Statement.ElseIsNearest) :=
  parseWith_stated
    { error := fun _ => trivial
      run := fun n _ _ _ _ _ h =>
        Parse.statementFrom_elseIsNearest (Grammar.levels_takesElse n) h }
    options source

end ScriptTree
