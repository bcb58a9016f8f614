import ScriptTree.Proofs.Parse.Logic

/-!
# Loops and their turns

The loops of the grammar are written as recursions that may take so many
turns and no more. That they end is then no merit of theirs. What makes a
loop end is that no turn leaves the text as it found it: where another
turn is taken, the current token is one further on.

A `Loop` is such a recursion together with its single turn, which knows of
no bound. It **proceeds** if every turn that asks for another one moves
on; only where a turn has ended the parse need it not, since the next one
leaves the loop. A loop that proceeds comes to the same as it would
without a bound (`Loop.Comes`): the turns it may take are more than it
needs.
-/

namespace ScriptTree

/-- **What comes of one turn of a loop.** -/
inductive Turn (σ α : Type) where
  /-- There is to be another turn, with what has been found so far. -/
  | again (x : σ)
  /-- The loop is left with an answer. -/
  | done (a : α)

namespace Turn

variable {σ α : Type} {m : Type → Type} [Monad m]

/-- What follows a turn: the rest of the loop, or its answer. -/
def followedBy (rest : σ → m α) : Turn σ α → m α
  | again x => rest x
  | done a => pure a

variable [LawfulMonad m] {rest : σ → m α}

@[simp] theorem again_followedBy (x : σ) :
    (Pure.pure (again x) : m (Turn σ α)) >>= followedBy rest = rest x :=
  pure_bind _ _

@[simp] theorem done_followedBy (a : α) :
    (Pure.pure (done a) : m (Turn σ α)) >>= followedBy rest = pure a :=
  pure_bind _ _

omit [LawfulMonad m] in
@[simp] theorem ite_followedBy {c : Prop} [Decidable c]
    (x y : m (Turn σ α)) :
    (if c then x else y) >>= followedBy rest
      = if c then x >>= followedBy rest else y >>= followedBy rest := by
  split <;> rfl

end Turn

/-- **A loop that may take so many turns.** -/
structure Loop (σ α : Type) where
  /-- One turn, with what has been found so far. -/
  turn : σ → Parse (Turn σ α)
  /-- The loop, for as many turns. -/
  run : Nat → σ → Parse α
  /-- The loop is one turn after the other. -/
  run_succ (turns : Nat) (x : σ) :
    run (turns + 1) x = turn x >>= Turn.followedBy (run turns)

namespace Loop

/-- A loop of an action, which is left by an answer only. -/
def ofAction {σ α : Type} (turn : σ → Action (Turn σ α))
    (run : Nat → σ → Action α)
    (run_succ : ∀ turns x,
      run (turns + 1) x = turn x >>= Turn.followedBy (run turns)) :
    Loop σ α where
  turn x := liftM (turn x)
  run turns x := liftM (run turns x)
  run_succ turns x := by
    rw [run_succ]
    funext ctx s
    rw [Parse.bind_run]
    show (Except.ok ((turn x ctx s).1.followedBy (run turns) ctx _).1, _)
      = (turn x ctx s).1.followedBy
        (fun y => (liftM (run turns y) : Parse α)) ctx _
    cases (turn x ctx s).1 <;> rfl

variable {σ α : Type} (l : Loop σ α) {root ctx : Context} {s t : State}
  {x y : σ}

/-- **What a loop comes to**, whatever turns it takes. -/
inductive Comes (ctx : Context) :
    σ → State → Except ParseError α × State → Prop where
  /-- A turn asks for another one. -/
  | again {x y : σ} {s t : State} {r : Except ParseError α × State}
      (turn : l.turn x ctx s = (.ok (.again y), t))
      (rest : Comes ctx y t r) : Comes ctx x s r
  /-- A turn leaves the loop. -/
  | done {x : σ} {a : α} {s t : State}
      (turn : l.turn x ctx s = (.ok (.done a), t)) :
      Comes ctx x s (.ok a, t)
  /-- A turn fails. -/
  | failure {x : σ} {e : ParseError} {s t : State}
      (turn : l.turn x ctx s = (.error e, t)) : Comes ctx x s (.error e, t)

/-- **A turn that leaves nothing to do**: it has ended the parse, and the
next turn leaves the loop. -/
def Ended (ctx : Context) (y : σ) (t : State) : Prop :=
  t.aborted = true ∧ ∃ a, l.turn y ctx t = (.ok (.done a), t)

/-- **What a turn that asks for another one does**: it was not begun at
the end of the text, and it moves on, unless it has ended the parse. -/
structure Forward (root ctx : Context) (s : State) (y : σ) (t : State) :
    Prop where
  /-- The parse is between two steps again. -/
  good : t.Good root
  /-- There was a token to read. -/
  here_lt : s.here < byteLength root.source
  /-- The current token is one further on. -/
  moves : s.here < t.here ∨ l.Ended ctx y t

/-- **A loop that makes progress**, wherever in a parse it is entered. -/
structure Proceeds (root : Context) : Prop where
  /-- A turn that asks for another one moves on. -/
  forward {ctx : Context} {s t : State} {x y : σ} (hctx : root.Within ctx)
    (hs : s.Good root) (h : l.turn x ctx s = (.ok (.again y), t)) :
    l.Forward root ctx s y t
  /-- The loop comes to what it would come to without a bound. -/
  comes {ctx : Context} {s : State} (hctx : root.Within ctx)
    (hs : s.Good root) (x : σ) : l.Comes ctx x s (l.run ctx.turns x ctx s)

variable {l}

/-- The last turn is taken if there is any left. -/
theorem run_of_done {a : α} {turns : Nat} (hturns : 0 < turns)
    (h : l.turn x ctx s = (.ok (.done a), t)) :
    l.run turns x ctx s = (.ok a, t) := by
  obtain ⟨turns, rfl⟩ := Nat.exists_eq_add_of_lt hturns
  rw [Nat.zero_add, l.run_succ, Parse.bind_run, h]
  rfl

/-- **A loop whose turns move on has turns enough** if there are more of
them than bytes to read. -/
theorem comes_of_forward
    (hforward : ∀ {s t x y}, s.Good root →
      l.turn x ctx s = (.ok (.again y), t) → l.Forward root ctx s y t)
    {turns : Nat} (hs : s.Good root)
    (hturns : byteLength root.source - s.here < turns) :
    l.Comes ctx x s (l.run turns x ctx s) := by
  induction turns generalizing s x with
  | zero => exact absurd hturns (Nat.not_lt_zero _)
  | succ turns ih =>
    rw [l.run_succ, Parse.bind_run]
    match h : l.turn x ctx s with
    | (.error e, t) => exact .failure h
    | (.ok (.done a), t) => exact .done h
    | (.ok (.again y), t) =>
      obtain ⟨ht, hlt, hmoves⟩ := hforward hs h
      refine .again h ?_
      show l.Comes ctx y t (l.run turns y ctx t)
      rcases hmoves with hmoves | ⟨_, a, hdone⟩
      · exact ih ht (by omega)
      · rw [run_of_done (by omega) hdone]
        exact .done hdone

/-- **A loop makes progress** if each of its turns that asks for another
one reads the token it was begun at. -/
theorem proceeds_of_ensures (hturns : byteLength root.source < root.turns)
    (h : ∀ {ctx s x}, Parse.Ensures root (l.turn x) ctx s (fun r t =>
      ∀ y, r = .again y → s.here < t.consumedTo
        ∨ s.current.isEof = false ∧ l.Ended ctx y t)) :
    l.Proceeds root := by
  have hforward {ctx : Context} {s t : State} {x y : σ}
      (hctx : root.Within ctx) (hs : s.Good root)
      (hturn : l.turn x ctx s = (.ok (.again y), t)) :
      l.Forward root ctx s y t := by
    obtain ⟨hst, hmoves⟩ := h.of_run hctx hs hturn
    have hle := hst.good.consumedTo_le
    have hlen := hst.good.isCut_here.le
    rcases hmoves y rfl with hpast | ⟨heof, hended⟩
    · exact ⟨hst.good, by omega, .inl (by omega)⟩
    · have hlt := hs.here_lt_stop heof
      have hstop := (hs.current_occupies heof).2.1.stop_le
      exact ⟨hst.good, Nat.lt_of_lt_of_le hlt hstop, .inr hended⟩
  refine ⟨hforward, fun hctx hs _ => ?_⟩
  refine comes_of_forward (hforward hctx) hs ?_
  rw [hctx.turns_eq]
  omega

/-- A turn that reads the token it was begun at, if it asks for another
one. -/
def Reading (s : State) (r : Turn σ α) (t : State) : Prop :=
  ∀ y, r = .again y → s.here < t.consumedTo

theorem Reading.of_past {r : Turn σ α} (h : s.here < t.consumedTo) :
    Reading s r t := fun _ _ => h

theorem Reading.of_done {a : α} : Reading s (.done a : Turn σ α) t :=
  fun _ h => nomatch h

theorem proceeds_of_reading (hturns : byteLength root.source < root.turns)
    (h : ∀ {ctx s x}, Parse.Ensures root (l.turn x) ctx s (Reading s)) :
    l.Proceeds root :=
  proceeds_of_ensures hturns
    (h.mono (fun _ _ _ hreading y hy => .inl (hreading y hy)))

end Loop

end ScriptTree
