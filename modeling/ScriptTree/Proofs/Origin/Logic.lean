import ScriptTree.Proofs.Parse.Recovery
import ScriptTree.Parse.Levels

/-!
# What productions give

A production *gives* something, in contexts of a kind, if each of its
answers is as claimed, from whatever state it is run. Failures are no
answers, and of the states nothing is said: what a production has of the
text is a matter of others. So the rules need neither the text nor the
place in it, and what is read on the way but left out of the answer may be
passed over (`Parse.Gives.skip`).

At a tolerant point an error node may be given instead, and the rules ask
for that (`hmend`).
-/

namespace ScriptTree

variable {α β : Type} {C D : Context → Prop} {R : α → Prop} {R' : β → Prop}

/-! ## Actions -/

namespace Action

/-- **What an action gives** in contexts of a kind. -/
def Gives (C : Context → Prop) (x : Action α) (R : α → Prop) : Prop :=
  ∀ ctx s, C ctx → R (x ctx s).1

namespace Gives

variable {x : Action α} {f : α → Action β}

theorem pure {a : α} (h : R a) : Gives C (pure a : Action α) R :=
  fun _ _ _ => h

/-- What is answered on the way may be anything. -/
theorem skip (hf : ∀ a, Gives C (f a) R') : Gives C (x >>= f) R' :=
  fun ctx _ hctx => hf _ ctx _ hctx

theorem ite {c : Prop} [Decidable c] {y : Action α}
    (hx : c → Gives C x R) (hy : ¬c → Gives C y R) :
    Gives C (if c then x else y) R := by
  split
  · exact hx ‹c›
  · exact hy ‹¬c›

end Gives

end Action

/-! ## Productions -/

namespace Parse

/-- **What a production gives** in contexts of a kind. -/
def Gives (C : Context → Prop) (p : Parse α) (R : α → Prop) : Prop :=
  ∀ ctx s a t, C ctx → p ctx s = (.ok a, t) → R a

namespace Gives

variable {p : Parse α} {f : α → Parse β}

theorem pure {a : α} (h : R a) : Gives C (pure a : Parse α) R := by
  intro ctx s b t _ hrun
  cases hrun
  exact h

theorem throw (e : ParseError) : Gives C (throw e : Parse α) R :=
  fun _ _ _ _ _ hrun => nomatch congrArg Prod.fst hrun

theorem bind (hp : Gives C p R) (hf : ∀ a, R a → Gives C (f a) R') :
    Gives C (p >>= f) R' := by
  intro ctx s b u hctx hrun
  obtain ⟨a, t, hfirst, hrun⟩ := of_bind_run hrun
  exact hf a (hp ctx s a t hctx hfirst) ctx t b u hctx hrun

/-- **What is answered on the way** may be anything. -/
theorem skip (hf : ∀ a, Gives C (f a) R') : Gives C (p >>= f) R' :=
  bind (R := fun _ => True) (fun _ _ _ _ _ _ => trivial) (fun a _ => hf a)

theorem mono {R₁ : α → Prop} (hp : Gives C p R) (h : ∀ a, R a → R₁ a) :
    Gives C p R₁ :=
  fun ctx s a t hctx hrun => h a (hp ctx s a t hctx hrun)

/-- Whatever is answered may be as claimed anyway. -/
theorem any (h : ∀ a, R a) : Gives C p R := fun _ _ a _ _ _ => h a

theorem ite {c : Prop} [Decidable c] {q : Parse α}
    (hp : c → Gives C p R) (hq : ¬c → Gives C q R) :
    Gives C (if c then p else q) R := by
  split
  · exact hp ‹c›
  · exact hq ‹¬c›

theorem map {f : α → β} (hp : Gives C p (fun a => R' (f a))) :
    Gives C (f <$> p) R' := by
  rw [map_eq_pure_bind]
  exact hp.bind (fun _ h => .pure h)

/-- An action is a production that never fails. -/
theorem lift {x : Action α} (hx : Action.Gives C x R) :
    Gives C (liftM x : Parse α) R := by
  intro ctx s a t hctx hrun
  cases hrun
  exact hx ctx s hctx

/-- A production in another context. -/
theorem withReader {f : Context → Context} (hf : ∀ ctx, C ctx → D (f ctx))
    (hp : Gives D p R) : Gives C (withReader f p : Parse α) R :=
  fun ctx s a t hctx hrun => hp (f ctx) s a t (hf ctx hctx) hrun

/-- **A production that counts as a level.** -/
theorem guarded (hp : Gives C p R) : Gives C (guarded p) R := by
  intro ctx s a t hctx hrun
  rw [guarded_run] at hrun
  obtain ⟨hanswer, -⟩ := Prod.ext_iff.1 hrun
  exact hp ctx s.enter a (p ctx s.enter).2 hctx (Prod.ext hanswer rfl)

/-- A production between brackets. -/
theorem inBrackets (hC : ∀ ctx, C ctx → D ctx.inBrackets)
    (hp : Gives D p R) : Gives C (inBrackets p) R :=
  (withReader hC hp).guarded

end Gives

open ScriptTree.Action

/-- Nothing is given where nothing is read. -/
theorem tooDeep_gives : Gives C (tooDeep : Parse α) R :=
  .skip fun _ => .skip fun _ => .throw _

theorem unexpected_gives (expected : String) :
    Gives C (unexpected expected : Parse α) R :=
  .skip fun _ => .throw _

/-! ## Going on after an error -/

variable [Mendable α] (hmend : ∀ node, R (Mendable.ofError node))

include hmend

theorem tolerant_gives {p : Parse α} (point : TolerantPoint)
    (hp : Gives C p R) : Gives C (tolerant point p) R := by
  intro ctx s a t hctx hrun
  rw [tolerant_run] at hrun
  match hfirst : p ctx s with
  | (.ok b, u) =>
    rw [hfirst] at hrun
    cases hrun
    exact hp ctx s _ _ hctx hfirst
  | (.error error, u) =>
    rw [hfirst] at hrun
    have hmended : Gives C (Mendable.ofError <$> mend point s.here error) R :=
      .map (.any hmend)
    exact hmended ctx u a t hctx hrun

end Parse

end ScriptTree
