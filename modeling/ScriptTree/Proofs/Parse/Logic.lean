import ScriptTree.Parse.Recovery
import ScriptTree.Proofs.Parse.Place

/-!
# What productions ensure

A production *ensures* something of its answer if, run from a good state,
it takes steps only, and what it answers – should it answer – is as
claimed. A failure is a run like any other, so the steps are part of the
bargain in any case.

The rules below follow the ways productions are put together. One of them
deserves the name of a rule, the one for two productions in sequence: what
the first ensures is what may be used of the second. Looking at the state
changes nothing, and each way to look has an equation by which it is gone.
-/

namespace ScriptTree

variable {root ctx : Context} {s : State} {α β : Type}

/-! ## Actions -/

namespace Action

/-- **What an action ensures**, run in a context from a state. -/
def Ensures (root : Context) (action : Action α) (ctx : Context)
    (s : State) (Q : α → State → Prop) : Prop :=
  root.Within ctx → s.Good root →
    s.Leads root (action ctx s).2 ∧ Q (action ctx s).1 (action ctx s).2

namespace Ensures

variable {Q : α → State → Prop} {R : β → State → Prop}

theorem pure {a : α} (h : Q a s) :
    Ensures root (pure a : Action α) ctx s Q :=
  fun _ hs => ⟨.refl hs, h⟩

theorem bind {x : Action α} {f : α → Action β}
    (hx : Ensures root x ctx s Q)
    (hf : ∀ a t, s.Leads root t → Q a t → Ensures root (f a) ctx t R) :
    Ensures root (x >>= f) ctx s R := by
  intro hctx hs
  obtain ⟨ht, hQ⟩ := hx hctx hs
  obtain ⟨hu, hR⟩ := hf _ _ ht hQ hctx ht.good
  exact ⟨ht.trans hu, hR⟩

/-- **Looking at the state** changes nothing. -/
theorem look {x : Action α} {f : α → Action β} (a : α)
    (hx : x ctx s = (a, s)) (hf : Ensures root (f a) ctx s R) :
    Ensures root (x >>= f) ctx s R := by
  refine bind (Q := fun b t => b = a ∧ t = s) ?_ ?_
  · intro _ hs
    rw [hx]
    exact ⟨.refl hs, rfl, rfl⟩
  · rintro _ _ _ ⟨rfl, rfl⟩
    exact hf

/-- What is known of the context and the state may be used. -/
theorem of_good {x : Action α}
    (h : root.Within ctx → s.Good root → Ensures root x ctx s Q) :
    Ensures root x ctx s Q :=
  fun hctx hs => h hctx hs hctx hs

theorem mono {x : Action α} {Q' : α → State → Prop}
    (hx : Ensures root x ctx s Q)
    (h : ∀ a t, s.Leads root t → Q a t → Q' a t) :
    Ensures root x ctx s Q' := by
  intro hctx hs
  obtain ⟨ht, hQ⟩ := hx hctx hs
  exact ⟨ht, h _ _ ht hQ⟩

theorem ite {c : Prop} [Decidable c] {x y : Action α}
    (hx : c → Ensures root x ctx s Q)
    (hy : ¬c → Ensures root y ctx s Q) :
    Ensures root (if c then x else y) ctx s Q := by
  split
  · exact hx ‹c›
  · exact hy ‹¬c›

theorem discard {x : Action α} (hx : Ensures root x ctx s Q) :
    Ensures root (Functor.discard x) ctx s (fun _ t => ∃ a, Q a t) := by
  intro hctx hs
  obtain ⟨ht, hQ⟩ := hx hctx hs
  exact ⟨ht, _, hQ⟩

/-- What is answered is what the run of the action answers. -/
theorem with_run {x : Action α} (hx : Ensures root x ctx s Q) :
    Ensures root x ctx s (fun a t => Q a t ∧ x ctx s = (a, t)) :=
  fun hctx hs => ⟨(hx hctx hs).1, (hx hctx hs).2, rfl⟩

end Ensures

end Action

/-! ## Productions -/

namespace Parse

/-- **What a production ensures**, run in a context from a state. -/
def Ensures (root : Context) (p : Parse α) (ctx : Context) (s : State)
    (Q : α → State → Prop) : Prop :=
  root.Within ctx → s.Good root →
    s.Leads root (p ctx s).2
      ∧ ∀ a, (p ctx s).1 = .ok a → Q a (p ctx s).2

/-- One production after another: a failure of the first is that of
both. -/
theorem bind_run (x : Parse α) (f : α → Parse β) (ctx : Context)
    (s : State) :
    (x >>= f) ctx s = match x ctx s with
      | (.ok a, t) => f a ctx t
      | (.error e, t) => (.error e, t) := by
  show StateT.bind (x ctx) (ExceptT.bindCont fun a => f a ctx) s = _
  unfold StateT.bind
  show (match x ctx s with
    | (a, t) => ExceptT.bindCont (m := StateM State) (fun a => f a ctx) a t)
      = _
  obtain ⟨e | a, t⟩ := x ctx s <;> rfl

/-- **What has an answer** comes of something that has one. -/
theorem of_bind_run {x : Parse α} {f : α → Parse β} {ctx : Context}
    {s u : State} {b : β} (h : (x >>= f) ctx s = (.ok b, u)) :
    ∃ a t, x ctx s = (.ok a, t) ∧ f a ctx t = (.ok b, u) := by
  rw [bind_run] at h
  match hrun : x ctx s with
  | (.ok a, t) =>
    rw [hrun] at h
    exact ⟨a, t, rfl, h⟩
  | (.error e, t) =>
    rw [hrun] at h
    exact nomatch congrArg Prod.fst h

theorem discard_run {x : Parse α} {ctx : Context} {s t : State} {a : α}
    (h : x ctx s = (.ok a, t)) :
    (discard x : Parse PUnit) ctx s = (.ok ⟨⟩, t) := by
  have hmap : (discard x : Parse PUnit) = (fun _ => ⟨⟩) <$> x := rfl
  rw [hmap, map_eq_pure_bind, bind_run, h]
  rfl

theorem of_discard_run {x : Parse α} {ctx : Context} {s t : State}
    {a : PUnit} (h : discard x ctx s = (.ok a, t)) :
    ∃ b, x ctx s = (.ok b, t) := by
  have hmap : (discard x : Parse PUnit) = (fun _ => ⟨⟩) <$> x := rfl
  rw [hmap, map_eq_pure_bind] at h
  obtain ⟨b, u, hrun, h⟩ := of_bind_run h
  cases h
  exact ⟨b, hrun⟩

/-- A production and what is done about its failure. -/
theorem tryCatch_run (x : Parse α) (f : ParseError → Parse α)
    (ctx : Context) (s : State) :
    (tryCatch x f : Parse α) ctx s = match x ctx s with
      | (.ok a, t) => (.ok a, t)
      | (.error e, t) => f e ctx t := by
  -- The run is generalized, since both sides match on it.
  have h : ∀ r, x ctx s = r →
      (tryCatch x f : Parse α) ctx s = match r with
        | (.ok a, t) => (.ok a, t)
        | (.error e, t) => f e ctx t := by
    intro r hr
    show ExceptT.tryCatch (x ctx) (fun e => f e ctx) s = _
    simp only [ExceptT.tryCatch, ExceptT.mk, bind, StateT.bind]
    rw [hr]
    obtain ⟨e | a, t⟩ := r <;> rfl
  exact h _ rfl

/-- A production that counts as a level is run inside of it. -/
theorem guarded_run (x : Parse α) (ctx : Context) (s : State) :
    guarded x ctx s = ((x ctx s.enter).1, (x ctx s.enter).2.leave) := by
  have h : ∀ r, x ctx s.enter = r →
      guarded x ctx s = (r.1, r.2.leave) := by
    intro r hr
    unfold guarded
    rw [bind_run]
    show (tryFinally x (modify State.leave) : Parse α) ctx s.enter = _
    simp only [tryFinally, tryFinally', Functor.map, ExceptT.map,
      ExceptT.mk, bind, StateT.bind, pure]
    rw [hr]
    obtain ⟨e | a, t⟩ := r <;> rfl
  exact h _ rfl

namespace Ensures

variable {Q Q' : α → State → Prop} {R : β → State → Prop}

theorem pure {a : α} (h : Q a s) :
    Ensures root (pure a : Parse α) ctx s Q := by
  intro _ hs
  refine ⟨.refl hs, fun b hb => ?_⟩
  cases hb
  exact h

theorem throw (e : ParseError) :
    Ensures root (throw e : Parse α) ctx s Q :=
  fun _ hs => ⟨.refl hs, fun _ hb => nomatch hb⟩

theorem bind {x : Parse α} {f : α → Parse β}
    (hx : Ensures root x ctx s Q)
    (hf : ∀ a t, s.Leads root t → Q a t → Ensures root (f a) ctx t R) :
    Ensures root (x >>= f) ctx s R := by
  intro hctx hs
  obtain ⟨ht, hQ⟩ := hx hctx hs
  rw [bind_run]
  generalize x ctx s = r at ht hQ
  obtain ⟨e | a, t⟩ := r
  · exact ⟨ht, fun _ hb => nomatch hb⟩
  · obtain ⟨hu, hR⟩ := hf a t ht (hQ a rfl) hctx ht.good
    exact ⟨ht.trans hu, hR⟩

/-- **Looking at the state** changes nothing. -/
theorem look {x : Parse α} {f : α → Parse β} (a : α)
    (hx : x ctx s = (.ok a, s)) (hf : Ensures root (f a) ctx s R) :
    Ensures root (x >>= f) ctx s R := by
  intro hctx hs
  rw [bind_run, hx]
  exact hf hctx hs

/-- What is known of the context and the state may be used. -/
theorem of_good {x : Parse α}
    (h : root.Within ctx → s.Good root → Ensures root x ctx s Q) :
    Ensures root x ctx s Q :=
  fun hctx hs => h hctx hs hctx hs

theorem mono {x : Parse α} (hx : Ensures root x ctx s Q)
    (h : ∀ a t, s.Leads root t → Q a t → Q' a t) :
    Ensures root x ctx s Q' := by
  intro hctx hs
  obtain ⟨ht, hQ⟩ := hx hctx hs
  exact ⟨ht, fun a ha => h a _ ht (hQ a ha)⟩

theorem ite {c : Prop} [Decidable c] {x y : Parse α}
    (hx : c → Ensures root x ctx s Q)
    (hy : ¬c → Ensures root y ctx s Q) :
    Ensures root (if c then x else y) ctx s Q := by
  split
  · exact hx ‹c›
  · exact hy ‹¬c›

theorem map {x : Parse α} {f : α → β}
    (hx : Ensures root x ctx s (fun a t => R (f a) t)) :
    Ensures root (f <$> x) ctx s R := by
  rw [map_eq_pure_bind]
  exact hx.bind (fun a t _ h => .pure h)

theorem discard {x : Parse α} (hx : Ensures root x ctx s Q) :
    Ensures root (Functor.discard x) ctx s (fun _ t => ∃ a, Q a t) :=
  map (hx.mono (fun a _ _ h => ⟨a, h⟩))

/-- **A production as an action**: its failure is an answer like any
other. -/
theorem attempt {x : Parse α} (hx : Ensures root x ctx s Q) :
    Action.Ensures root (Action.attempt x) ctx s
      (fun r t => ∀ a, r = .ok a → Q a t) :=
  hx

/-- An action is a production that never fails. -/
theorem lift {x : Action α} (hx : Action.Ensures root x ctx s Q) :
    Ensures root (liftM x : Parse α) ctx s Q := by
  intro hctx hs
  obtain ⟨ht, hQ⟩ := hx hctx hs
  refine ⟨ht, fun a ha => ?_⟩
  cases ha
  exact hQ

/-- A production in another context of the same run. -/
theorem withReader {x : Parse α} {f : Context → Context}
    (hf : root.Within ctx → root.Within (f ctx))
    (hx : Ensures root x (f ctx) s Q) :
    Ensures root (withReader f x : Parse α) ctx s Q :=
  fun hctx hs => hx (hf hctx) hs

/-- **A production that counts as a level.** -/
theorem guarded {x : Parse α} (hx : Ensures root x ctx s.enter Q)
    (hleave : ∀ a t, Q a t → Q' a t.leave) :
    Ensures root (guarded x) ctx s Q' := by
  intro hctx hs
  obtain ⟨ht, hQ⟩ := hx hctx (hs.atDepth _)
  rw [guarded_run]
  exact ⟨.leave hs ht, fun a ha => hleave a _ (hQ a ha)⟩

/-- What is answered is what the run of the production answers. -/
theorem with_run {x : Parse α} (hx : Ensures root x ctx s Q) :
    Ensures root x ctx s (fun a t => Q a t ∧ x ctx s = (.ok a, t)) := by
  intro hctx hs
  obtain ⟨ht, hQ⟩ := hx hctx hs
  exact ⟨ht, fun a ha => ⟨hQ a ha, Prod.ext ha rfl⟩⟩

/-- What is ensured holds of a given run. -/
theorem of_run {x : Parse α} {a : α} {t : State}
    (hx : Ensures root x ctx s Q) (hctx : root.Within ctx)
    (hs : s.Good root) (hrun : x ctx s = (.ok a, t)) :
    s.Leads root t ∧ Q a t := by
  obtain ⟨ht, hQ⟩ := hx hctx hs
  rw [hrun] at ht hQ
  exact ⟨ht, hQ a rfl⟩

end Ensures

end Parse

end ScriptTree
