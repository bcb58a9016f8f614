import ScriptTree.Proofs.Plan.Basic
import ScriptTree.Proofs.Progress.Tolerant

/-!
# Contexts and levels in registers

A production is handed its context, and it has as many levels as it is
given. A program may just as well have one context for all of them, which
it changes as it goes, and one number of levels, which it compares with
the limit wherever a level is entered. It then has to undo each change on
every way out, failures included; one that is left would be felt by
everything behind it.

A `Machine` has both in registers, and a `Routine` is a program for it.
`Routine.CarriesOut` says what routine makes a production of it: where the
production is run in another context the register is set and set back,
where it enters a level the limit is looked at, and everything else is as
it was. What is proved by induction on this is that nothing is left behind
(`Routine.CarriesOut.restores`): the routine answers what the production
answers, and finds its registers as they were.
-/

namespace ScriptTree

variable {α β : Type} {ctx : Context} {s t : State}

/-! ## Refusals -/

/-- How many refusals an answer hands on: one or none. -/
def refusalsOf : Except ParseError α → Nat
  | .error error => error.refusals
  | .ok _ => 0

/-- How many statements have been given up because they were refused. -/
def State.refusals (s : State) : Nat :=
  s.events.toList.countP Event.isRefusal

namespace State

/-- One more decision on record. -/
theorem refusals_record (event : Event) (s : State) :
    { s with events := s.events.push event }.refusals
      = s.refusals + event.refusals := by
  unfold refusals
  rw [Array.toList_push, List.countP_append, List.countP_singleton]
  rfl

theorem Reported.kept (h : s.Reported ctx t) :
    t.depth = s.depth ∧ t.refusals = s.refusals := by
  rw [h.eq]
  exact ⟨rfl, rfl⟩

theorem bump_kept (ctx : Context) (s : State) :
    (s.bump ctx).depth = s.depth ∧ (s.bump ctx).refusals = s.refusals := by
  obtain ⟨t, ht, heq⟩ := bump_eq ctx s
  rw [heq]
  exact ht.kept

theorem rescanRegex_kept (ctx : Context) (s : State) :
    (s.rescanRegex ctx).depth = s.depth
      ∧ (s.rescanRegex ctx).refusals = s.refusals := by
  obtain ⟨t, ht, heq⟩ := rescanRegex_eq ctx s
  rw [heq]
  exact ht.kept

end State

/-! ## Machines -/

/-- **A parse with its context in a register.** The number of levels is
the one that its state keeps. -/
structure Machine where
  /-- The context, whatever routine runs. -/
  context : Context
  /-- The place of the parse, and what it has found. -/
  state : State
  /-- The most levels that were ever entered and not yet left. -/
  deepest : Nat
  /-- How often a level was to be entered and there were as many as there
  may be. -/
  atLimit : Nat

namespace Machine

/-- The machine at the front of a script. -/
def initial (ctx : Context) : Machine where
  context := ctx
  state := .initial ctx
  deepest := 0
  atLimit := 0

/-- How many levels there may be. -/
def limit (m : Machine) : Nat := m.context.options.maxNestingDepth

/-- Takes down that a level is to be entered. -/
def note (m : Machine) : Machine :=
  { m with
    atLimit := m.atLimit + if m.state.depth = some m.limit then 1 else 0 }

/-- Whether there may be no more levels. -/
def isFull (m : Machine) : Bool := m.state.depth.any (m.limit ≤ ·)

/-- Enters a level. -/
def enter (m : Machine) : Machine :=
  { m with
    state := m.state.enter
    deepest := max m.deepest (m.state.enter.depth.getD 0) }

/-- Leaves a level. -/
def leave (m : Machine) : Machine := { m with state := m.state.leave }

end Machine

/-- **A program for such a machine.** -/
abbrev Routine (α : Type) := ExceptT ParseError (StateM Machine) α

namespace Routine

/-- A production that is handed what is in the register. -/
def handing (p : Parse α) : Routine α := fun m =>
  ((p m.context m.state).1, { m with state := (p m.context m.state).2 })

/-- **A routine in another context**: the register is set, and is set back
however the routine ends. -/
def within (f : Context → Context) (q : Routine α) : Routine α := do
  let saved := (← get).context
  modify fun m => { m with context := f saved }
  try q finally modify fun m => { m with context := saved }

/-- **A routine without `in`.** Only this part of the register is set and
set back. -/
def withoutIn (q : Routine α) : Routine α := do
  let saved := (← get).context.allowIn
  modify fun m => { m with context := m.context.withoutIn }
  try q
  finally modify fun m =>
    { m with context := { m.context with allowIn := saved } }

/-- **A routine that counts as a level**, which is entered unless there
are as many as there may be, and left however the routine ends. -/
def guarded (q : Routine α) : Routine α := do
  modify Machine.note
  if (← get).isFull then handing Parse.tooDeep
  else
    modify Machine.enter
    try q finally modify Machine.leave

/-! ## Running a routine -/

section Running

variable (q : Routine α) (m : Machine)

theorem bind_run (f : α → Routine β) :
    (q >>= f) m = match q m with
      | (.ok a, k) => f a k
      | (.error e, k) => (.error e, k) := by
  show StateT.bind q (ExceptT.bindCont f) m = _
  unfold StateT.bind
  show (match q m with
    | (a, k) => ExceptT.bindCont (m := StateM Machine) f a k) = _
  obtain ⟨e | a, k⟩ := q m <;> rfl

theorem tryCatch_run (f : ParseError → Routine α) :
    (tryCatch q f : Routine α) m = match q m with
      | (.ok a, k) => (.ok a, k)
      | (.error e, k) => f e k := by
  -- The run is generalized, since both sides match on it.
  have h : ∀ r, q m = r →
      (tryCatch q f : Routine α) m = match r with
        | (.ok a, k) => (.ok a, k)
        | (.error e, k) => f e k := by
    intro r hr
    show ExceptT.tryCatch q f m = _
    simp only [ExceptT.tryCatch, ExceptT.mk, bind, StateT.bind]
    rw [hr]
    obtain ⟨e | a, k⟩ := r <;> rfl
  exact h _ rfl

/-- What is done in any case is done behind the routine. -/
theorem tryFinally_run (f : Machine → Machine) :
    (tryFinally q (modify f) : Routine α) m = ((q m).1, f (q m).2) := by
  have h : ∀ r, q m = r →
      (tryFinally q (modify f) : Routine α) m = (r.1, f r.2) := by
    intro r hr
    simp only [tryFinally, tryFinally', Functor.map, ExceptT.map,
      ExceptT.mk, bind, StateT.bind, pure]
    rw [hr]
    obtain ⟨e | a, k⟩ := r <;> rfl
  exact h _ rfl

theorem within_run (f : Context → Context) :
    within f q m = ((q { m with context := f m.context }).1,
      { (q { m with context := f m.context }).2 with
        context := m.context }) :=
  tryFinally_run q _ _

theorem withoutIn_run :
    withoutIn q m = ((q { m with context := m.context.withoutIn }).1,
      { (q { m with context := m.context.withoutIn }).2 with
        context := { (q { m with context := m.context.withoutIn }).2.context
          with allowIn := m.context.allowIn } }) :=
  tryFinally_run q _ _

theorem guarded_run :
    guarded q m = if m.note.isFull then handing Parse.tooDeep m.note
      else ((q m.note.enter).1, (q m.note.enter).2.leave) := by
  show (if _ then _ else _ : Routine α) m.note = _
  split
  · rfl
  · exact tryFinally_run q _ _

end Running

end Routine

/-! ## From productions to routines -/

/-- **What productions are made of in the end**: one looks at the context
and the state, changes the state in one of a few ways, or fails. What it
is handed of refusals it hands on or takes down. -/
inductive Parse.IsPrimitive :
    (handed : Nat) → {α : Type} → Parse α → Prop where
  /-- It looks at the context and the state. -/
  | look {α : Type} (f : Context → State → α) :
      IsPrimitive 0 fun ctx s => (.ok (f ctx s), s)
  /-- It reads the current token. -/
  | bump (ctx : Context) :
      IsPrimitive 0 (modify (·.bump ctx) : Parse PUnit)
  /-- It reads it again as a regular expression. -/
  | rescan (ctx : Context) :
      IsPrimitive 0 (modify (·.rescanRegex ctx) : Parse PUnit)
  /-- It takes down a problem. -/
  | report (ctx : Context) (kind : DiagnosticKind) (severity : Severity)
      (message : String) (span : Span) :
      IsPrimitive 0
        (modify (·.report ctx kind severity message span) : Parse PUnit)
  /-- It takes down an error. -/
  | reportError (ctx : Context) (kind : DiagnosticKind)
      (error : ParseError) :
      IsPrimitive 0 (modify (·.reportError ctx kind error) : Parse PUnit)
  /-- It takes down a decision. -/
  | record (event : Event) :
      IsPrimitive event.refusals (liftM (Action.record event) : Parse Unit)
  /-- It fails. -/
  | throw {α : Type} (error : ParseError) :
      IsPrimitive error.refusals (throw error : Parse α)

namespace Routine

/-- **A routine that carries out a production**, with so many levels to go
and so many refusals handed to it. Each rule is a way in which productions
are put together. -/
inductive CarriesOut : (levels handed : Nat) → {α : Type} → Routine α →
    Parse α → Prop where
  /-- What productions are made of is run as it is. -/
  | handing {n i : Nat} {α : Type} {p : Parse α}
      (primitive : p.IsPrimitive i) : CarriesOut n i (handing p) p
  /-- One production after another. -/
  | bind {n i : Nat} {α β : Type} {q : Routine α} {p : Parse α}
      {rest : α → Routine β} {f : α → Parse β} (first : CarriesOut n i q p)
      (behind : ∀ a, CarriesOut n 0 (rest a) (f a)) :
      CarriesOut n i (q >>= rest) (p >>= f)
  /-- What is handed to an action is left to what is behind it. -/
  | behind {n i : Nat} {α β : Type} {q : Routine α} {x : Action α}
      {rest : α → Routine β} {f : α → Parse β}
      (first : CarriesOut n 0 q (liftM x))
      (behind : ∀ a, CarriesOut n i (rest a) (f a)) :
      CarriesOut n i (q >>= rest) (liftM x >>= f)
  /-- A production and what is done about its failure. -/
  | tryCatch {n : Nat} {α : Type} {q : Routine α} {p : Parse α}
      {rest : ParseError → Routine α} {f : ParseError → Parse α}
      (first : CarriesOut n 0 q p)
      (behind : ∀ error, CarriesOut n error.refusals (rest error) (f error)) :
      CarriesOut n 0 (tryCatch q rest) (tryCatch p f)
  /-- Between brackets the register is set. -/
  | inBrackets {n : Nat} {α : Type} {q : Routine α} {p : Parse α}
      (body : CarriesOut n 0 q p) :
      CarriesOut n 0 (within Context.inBrackets q)
        (withReader Context.inBrackets p)
  /-- So it is for a list of statements. -/
  | inList {n : Nat} {α : Type} {q : Routine α} {p : Parse α}
      (listEnd : ListEnd) (body : CarriesOut n 0 q p) :
      CarriesOut n 0 (within (·.inList listEnd) q)
        (withReader (·.inList listEnd) p)
  /-- Where `in` is no operator a part of it is. -/
  | withoutIn {n : Nat} {α : Type} {q : Routine α} {p : Parse α}
      (body : CarriesOut n 0 q p) :
      CarriesOut n 0 (withoutIn q) (withReader Context.withoutIn p)
  /-- A level is entered. -/
  | guarded {n : Nat} {α : Type} {q : Routine α} {p : Parse α}
      (body : CarriesOut n 0 q p) :
      CarriesOut (n + 1) 0 (guarded q) (Parse.guarded p)
  /-- A level is to be entered, and there is none to go, whatever the
  routine for it. -/
  | refused {α : Type} (q : Routine α) :
      CarriesOut 0 0 (Routine.guarded q) Parse.tooDeep

end Routine

/-! ## Nothing is left behind -/

/-- **What a routine comes to** that was begun in some state of a machine,
in place of a production. -/
structure Machine.Restored (m : Machine) (handed : Nat) (p : Parse α)
    (r : Except ParseError α × Machine) : Prop where
  /-- The answer is that of the production. -/
  answer_eq : r.1 = (p m.context m.state).1
  /-- So is the state. -/
  state_eq : r.2.state = (p m.context m.state).2
  /-- The register is as it was. -/
  context_eq : r.2.context = m.context
  /-- There are as many levels as there were. -/
  depth_eq : r.2.state.depth = m.state.depth
  /-- There were never more of them than there may be. -/
  deepest_le : r.2.deepest ≤ max m.deepest m.limit
  /-- Each time when there were as many as there may be, something was
  refused, and at no other time: what was refused, or handed over as such,
  is handed on or has cost a statement. -/
  atLimit_eq : r.2.atLimit + m.state.refusals + handed
    = m.atLimit + r.2.state.refusals + refusalsOf r.1

namespace Machine.Restored

variable {m : Machine} {i : Nat} {p : Parse α} {q : Routine α}

/-- What is handed the register leaves it as it was. -/
theorem handing (hp : p.IsPrimitive i) :
    m.Restored i p (Routine.handing p m) := by
  have hkept : (p m.context m.state).2.depth = m.state.depth
      ∧ (p m.context m.state).2.refusals + refusalsOf (p m.context m.state).1
        = m.state.refusals + i := by
    cases hp with
    | look f => exact ⟨rfl, rfl⟩
    | bump ctx => exact State.bump_kept ctx m.state
    | rescan ctx => exact State.rescanRegex_kept ctx m.state
    | report ctx kind severity message span =>
      exact (State.report_reported ctx kind severity message span _).kept
    | reportError ctx kind error =>
      exact (State.reportError_reported ctx kind error m.state).kept
    | record event => exact ⟨rfl, State.refusals_record event m.state⟩
    | throw error => exact ⟨rfl, rfl⟩
  refine ⟨rfl, rfl, rfl, hkept.1, Nat.le_max_left .., ?_⟩
  have hrefusals := hkept.2
  show m.atLimit + _ + _ = m.atLimit + (p m.context m.state).2.refusals
    + refusalsOf (p m.context m.state).1
  omega

/-- **What follows** finds the registers as the first routine did. What is
handed to it is what was handed to both and what the first one hands on. -/
theorem trans {j k : Nat} {p' p'' : Parse β}
    {r : Except ParseError α × Machine} {r' : Except ParseError β × Machine}
    (first : m.Restored i p r) (behind : r.2.Restored j p' r')
    (hrun : p'' m.context m.state = p' m.context r.2.state)
    (hhanded : k + refusalsOf r.1 = i + j) : m.Restored k p'' r' := by
  have hcontext := first.context_eq
  have hsame : r.2.limit = m.limit := by rw [limit, limit, hcontext]
  have hdeepest := first.deepest_le
  have hdeepest' := behind.deepest_le
  rw [hsame] at hdeepest'
  have hlimit := first.atLimit_eq
  have hlimit' := behind.atLimit_eq
  refine ⟨?_, ?_, behind.context_eq.trans hcontext,
    behind.depth_eq.trans first.depth_eq, by omega, by omega⟩
  · rw [hrun, ← hcontext]
    exact behind.answer_eq
  · rw [hrun, ← hcontext]
    exact behind.state_eq

/-- What runs behind a routine has as many levels to go. -/
theorem levels {n d : Nat} {r : Except ParseError α × Machine}
    (h : m.Restored i p r) (hdepth : m.state.depth = some d)
    (hlimit : d + n = m.limit) :
    r.2.state.depth = some d ∧ d + n = r.2.limit := by
  refine ⟨h.depth_eq.trans hdepth, ?_⟩
  rw [hlimit, limit, limit, h.context_eq]

/-- A production ends as its routine does. -/
theorem run_eq {r : Except ParseError α × Machine} (h : m.Restored i p r) :
    p m.context m.state = (r.1, r.2.state) :=
  Prod.ext h.answer_eq.symm h.state_eq.symm

theorem bind {rest : α → Routine β} {f : α → Parse β}
    (hq : m.Restored i p (q m))
    (hrest : ∀ a, (q m).2.Restored 0 (f a) (rest a (q m).2)) :
    m.Restored i (p >>= f) ((q >>= rest) m) := by
  have hp := hq.run_eq
  rw [Routine.bind_run]
  generalize q m = r at *
  obtain ⟨e | a, k⟩ := r
  · refine ⟨?_, ?_, hq.context_eq, hq.depth_eq, hq.deepest_le,
      hq.atLimit_eq⟩ <;> rw [Parse.bind_run, hp]
  · exact hq.trans (hrest a) (by rw [Parse.bind_run, hp]) rfl

/-- An action does not fail, so that something may be handed past it. -/
theorem behind {x : Action α} {rest : α → Routine β} {f : α → Parse β}
    (hq : m.Restored 0 (liftM x) (q m))
    (hrest : ∀ a, (q m).2.Restored i (f a) (rest a (q m).2)) :
    m.Restored i (liftM x >>= f) ((q >>= rest) m) := by
  have hp := hq.run_eq
  rw [Routine.bind_run]
  generalize q m = r at *
  obtain ⟨e | a, k⟩ := r
  · cases hq.answer_eq
  · exact hq.trans (hrest a) (by rw [Parse.bind_run, hp])
      (Nat.add_comm ..)

/-- What is done about a failure is handed the refusal that it is. -/
theorem tryCatch {rest : ParseError → Routine α}
    {f : ParseError → Parse α} (hq : m.Restored 0 p (q m))
    (hrest : ∀ error,
      (q m).2.Restored error.refusals (f error) (rest error (q m).2)) :
    m.Restored 0 (tryCatch p f) ((tryCatch q rest : Routine α) m) := by
  have hp := hq.run_eq
  rw [Routine.tryCatch_run]
  generalize q m = r at *
  obtain ⟨e | a, k⟩ := r
  · exact hq.trans (hrest e) (by rw [Parse.tryCatch_run, hp]) rfl
  · refine ⟨?_, ?_, hq.context_eq, hq.depth_eq, hq.deepest_le,
      hq.atLimit_eq⟩ <;> rw [Parse.tryCatch_run, hp]

/-- **A context that is set and set back** is that of the production. -/
theorem within {f : Context → Context}
    (hf : (f m.context).options = m.context.options)
    (hq : ({ m with context := f m.context } : Machine).Restored 0 p
      (q { m with context := f m.context })) :
    m.Restored 0 (withReader f p) (Routine.within f q m) := by
  have hsame : ({ m with context := f m.context } : Machine).limit
      = m.limit := congrArg Options.maxNestingDepth hf
  rw [Routine.within_run]
  have hdeepest := hq.deepest_le
  rw [hsame] at hdeepest
  exact ⟨hq.answer_eq, hq.state_eq, rfl, hq.depth_eq, hdeepest,
    hq.atLimit_eq⟩

theorem withoutIn
    (hq : ({ m with context := m.context.withoutIn } : Machine).Restored 0 p
      (q { m with context := m.context.withoutIn })) :
    m.Restored 0 (withReader Context.withoutIn p)
      (Routine.withoutIn q m) := by
  rw [Routine.withoutIn_run]
  refine ⟨hq.answer_eq, hq.state_eq, ?_, hq.depth_eq, hq.deepest_le,
    hq.atLimit_eq⟩
  rw [hq.context_eq]
  rfl

/-- **A level that is entered** is left again. -/
theorem guarded {d : Nat} (hdepth : m.state.depth = some d)
    (hlt : d < m.limit)
    (hq : m.note.enter.Restored 0 p (q m.note.enter)) :
    m.Restored 0 (Parse.guarded p) (Routine.guarded q m) := by
  have hfull : m.note.isFull = false := by
    show m.state.depth.any (m.limit ≤ ·) = false
    rw [hdepth]
    exact decide_eq_false (Nat.not_le.2 hlt)
  have hnote : m.note.atLimit = m.atLimit := by
    show m.atLimit + (if m.state.depth = some m.limit then 1 else 0) = _
    rw [hdepth, if_neg fun h => Nat.ne_of_lt hlt (Option.some.inj h)]
    rfl
  have hleave : (q m.note.enter).2.state.leave
      = (q m.note.enter).2.state.atDepth m.state.depth :=
    State.leave_of_enter hq.depth_eq
  have hdeepest := hq.deepest_le
  have henter : m.note.enter.deepest = max m.deepest (d + 1) := by
    show max m.deepest (m.state.enter.depth.getD 0) = _
    rw [State.enter, hdepth]
    rfl
  have hsame : m.note.enter.limit = m.limit := rfl
  rw [henter, hsame] at hdeepest
  rw [Routine.guarded_run, if_neg (Bool.eq_false_iff.1 hfull)]
  refine ⟨?_, ?_, hq.context_eq, ?_, ?_, ?_⟩
  · rw [Parse.guarded_run]
    exact hq.answer_eq
  · rw [Parse.guarded_run]
    exact congrArg State.leave hq.state_eq
  · show (q m.note.enter).2.state.leave.depth = m.state.depth
    rw [hleave]
    rfl
  · show (q m.note.enter).2.deepest ≤ _
    omega
  · rw [← hnote]
    exact hq.atLimit_eq

/-- **A level that is refused** was not entered. -/
theorem refused (hdepth : m.state.depth = some m.limit) :
    m.Restored 0 (Parse.tooDeep : Parse α) (Routine.guarded q m) := by
  have hfull : m.note.isFull = true := by
    show m.state.depth.any (m.limit ≤ ·) = true
    rw [hdepth]
    exact decide_eq_true (Nat.le_refl _)
  have hnote : m.note.atLimit = m.atLimit + 1 := by
    show m.atLimit + (if m.state.depth = some m.limit then 1 else 0) = _
    rw [if_pos hdepth]
  rw [Routine.guarded_run, if_pos hfull]
  refine ⟨rfl, rfl, rfl, rfl, Nat.le_max_left .., ?_⟩
  show m.note.atLimit + m.state.refusals + 0
    = m.atLimit + m.state.refusals + 1
  omega

end Machine.Restored

/-- **A routine leaves nothing behind** that carries out a production with
as many levels to go as there may still be, whether it succeeds or not. -/
theorem Routine.CarriesOut.restores {n i d : Nat} {q : Routine α}
    {p : Parse α} (h : q.CarriesOut n i p) {m : Machine}
    (hdepth : m.state.depth = some d) (hlimit : d + n = m.limit) :
    m.Restored i p (q m) := by
  induction h generalizing m d with
  | handing primitive => exact .handing primitive
  | bind first _ ihq ihrest =>
    have hq := ihq hdepth hlimit
    obtain ⟨hdepth', hlimit'⟩ := hq.levels hdepth hlimit
    exact hq.bind fun a => ihrest a hdepth' hlimit'
  | behind first _ ihq ihrest =>
    have hq := ihq hdepth hlimit
    obtain ⟨hdepth', hlimit'⟩ := hq.levels hdepth hlimit
    exact hq.behind fun a => ihrest a hdepth' hlimit'
  | tryCatch first _ ihq ihrest =>
    have hq := ihq hdepth hlimit
    obtain ⟨hdepth', hlimit'⟩ := hq.levels hdepth hlimit
    exact hq.tryCatch fun error => ihrest error hdepth' hlimit'
  | inBrackets body ih => exact .within rfl (ih hdepth hlimit)
  | inList listEnd body ih => exact .within rfl (ih hdepth hlimit)
  | withoutIn body ih => exact .withoutIn (ih hdepth hlimit)
  | guarded body ih =>
    have henter : m.note.enter.state.depth = some (d + 1) := by
      show m.state.depth.map (· + 1) = _
      rw [hdepth]
      rfl
    have hlimit' : d + 1 + _ = m.note.enter.limit :=
      (Nat.add_right_comm ..).trans hlimit
    exact .guarded hdepth (by omega) (ih henter hlimit')
  | refused q => exact .refused (hlimit ▸ hdepth)

end ScriptTree
