import ScriptTree.Proofs.Abreast.Family
import ScriptTree.Proofs.Plan.Basic

/-!
# What productions do abreast

A production is run by all parses of a family at once, each in its own
context and from its own state. If they stand at the same place they do so
afterwards and have the same answer, or the same failure, or they are
apart. This is `Parse.Abreast`, and there is a rule for it for each way in
which productions are put together.

A failure puts the parses of a strict family apart as soon as it is taken
down, but that only if it has not been taken down with a token already. So
what a production does abreast in a strict family may depend on what is
`known` of the tokens that have been met. Of parses that are apart it must
be clear, whatever is known, that they take back no problem.

A production may look at its state and at its context, as long as it sees
nothing that the parses have not in common (`view`, `consult`). Where it
looks at the options, what it does next is a matter of each parse
(`askOptions`), and so may be a choice it makes (`choose`).
-/

namespace ScriptTree

variable {ι : Type} {F : Family ι} {K : Prop} {α β : Type}

namespace Family

/-- **How a production ends** that was begun abreast. -/
inductive Ends (F : Family ι) (r : ι → Except ParseError α × State) :
    Prop where
  /-- All parses have the same answer. -/
  | answer {a : α} {u : State} {t : ι → State}
      (run : ∀ i, r i = (.ok a, t i)) (together : F.Together u t)
  /-- All parses fail alike. -/
  | failure {e : ParseError} {u : State} {t : ι → State}
      (run : ∀ i, r i = (.error e, t i)) (together : F.Together u t)
      (shows : F.strict → e.isLexical = false)
  /-- The parses are apart. -/
  | apart (leaves : ∀ i, F.Leaves i (r i))

variable {u : State} {s : ι → State}

/-- **What a place shows** is shown by every state that stands there. -/
theorem Together.eq (h : F.Together u s) {f : State → β}
    (hf : ∀ s, f s.sight = f s) (i : ι) : f (s i) = f u := by
  have hsight : (s i).place.sight = u.place.sight :=
    congrArg State.sight (h.place_eq i)
  change (s i).sight = u.sight at hsight
  rw [← hf (s i), hsight, hf]

theorem Together.aborted_eq (h : F.Together u s) (i : ι) :
    (s i).aborted = false :=
  (h.eq (f := State.aborted) (fun _ => rfl) i).trans h.going

/-- A parse that is apart stays so as problems are taken down. -/
theorem Leaves.of_apart {i : ι} {ctx : Context} {s : State}
    {r : Except ParseError α × State} (h : F.Apart i s.problems)
    (hgrows : s.Grows ctx r.2) : F.Leaves i r :=
  .inl (F.apart_mono hgrows.isPrefix h)

end Family

namespace Parse

/-- **What a production does abreast**: parses that go abreast have the
same answer, or fail alike. In any case no problem is taken back. -/
structure Abreast (F : Family ι) (known : Prop) (p : ι → Parse α) :
    Prop where
  /-- No problem is taken back. -/
  grows (i : ι) (c : Context) (s : State) :
    s.Grows (c.withOptions (F.options i))
      (p i (c.withOptions (F.options i)) s).2
  /-- Parses that go abreast go on so, or are apart. -/
  ends (h : F.strict → known) (c : Context) {u : State} {s : ι → State}
    (hs : F.Together u s) :
    F.Ends fun i => p i (c.withOptions (F.options i)) (s i)

/-- A production behind one with which a parse has left the others. -/
theorem leaves_bind {i : ι} {ctx : Context} {s : State} {x : Parse α}
    {f : α → Parse β} (h : F.Leaves i (x ctx s))
    (hf : ∀ a t, State.Grows ctx t (f a ctx t).2) :
    F.Leaves i ((x >>= f) ctx s) := by
  rw [bind_run]
  generalize x ctx s = r at h
  obtain ⟨e | a, t⟩ := r
  · rcases h with h | ⟨e', he, hparts, hgoing⟩
    · exact .inl h
    · obtain rfl : e = e' := Except.error.inj he
      exact .inr ⟨e, rfl, hparts, hgoing⟩
  · rcases h with h | ⟨_, he, _⟩
    · exact .of_apart h (hf a t)
    · exact nomatch he

namespace Abreast

/-- **What only looks** answers the same for all parses. -/
theorem look {x : Action α} (still : ∀ ctx s, (x ctx s).2 = s)
    (blind : ∀ ctx options s,
      (x (ctx.withOptions options) s.sight).1 = (x ctx s).1) :
    Abreast F K fun _ => (liftM x : Parse α) where
  grows i c s := by
    show s.Grows _ (x _ s).2
    rw [still]
    exact .refl _ s
  ends _ c u s hs := by
    have hx (i : ι) (s : State) :
        (x (c.withOptions (F.options i)) s).1 = (x c s).1 :=
      (blind (c.withOptions (F.options i)) c.options s).symm.trans
        (blind c c.options s)
    have hsight (s : State) : (x c s.sight).1 = (x c s).1 :=
      blind c c.options s
    refine .answer (a := (x c u).1) (t := s) (fun i => ?_) hs
    show (Except.ok (x _ (s i)).1, (x _ (s i)).2) = _
    rw [still, hx, hs.eq (f := fun s => (x c s).1) hsight]

theorem pure {a : α} : Abreast F K fun _ => (Pure.pure a : Parse α) :=
  look (x := Pure.pure a) (fun _ _ => rfl) fun _ _ _ => rfl

theorem throw {e : ParseError} (fresh : K → e.isLexical = false) :
    Abreast F K fun _ => (throw e : Parse α) where
  grows _ _ s := .refl _ s
  ends h _ _ _ hs :=
    .failure (fun _ => rfl) hs fun hstrict => fresh (h hstrict)

/-- A failure, whatever was to come. -/
theorem throwBind {e : ParseError} {f : ι → β → Parse α}
    (fresh : K → e.isLexical = false) :
    Abreast F K fun i => MonadExcept.throw e >>= f i where
  grows _ _ s := .refl _ s
  ends h _ _ _ hs :=
    .failure (fun _ => rfl) hs fun hstrict => fresh (h hstrict)

/-- One production after another. -/
theorem bind {x : ι → Parse α} {f : ι → α → Parse β}
    (hx : Abreast F K x) (hf : ∀ a, Abreast F K fun i => f i a) :
    Abreast F K fun i => x i >>= f i where
  grows i c s := by
    have h := hx.grows i c s
    rw [bind_run]
    generalize x i _ s = r at h
    obtain ⟨e | a, t⟩ := r
    · exact h
    · exact h.trans ((hf a).grows i c t)
  ends h c u s hs := by
    cases hx.ends h c hs with
    | answer run ht =>
      simp only [bind_run, run]
      exact (hf _).ends h c ht
    | failure run ht shows =>
      refine .failure (fun i => ?_) ht shows
      rw [bind_run, run]
    | apart leaves =>
      exact .apart fun i => leaves_bind (leaves i)
        fun a t => (hf a).grows i _ t

/-- **The current token** is the same for all parses, and nothing is wrong
with it in a strict family. -/
theorem meet {f : ι → Token → Parse β}
    (hf : ∀ token, Abreast F (K ∧ token.error = none) fun i => f i token) :
    Abreast F K fun i => liftM Action.current >>= f i where
  grows i c s := (hf s.current).grows i c s
  ends h c u s hs := by
    have hcurrent (i : ι) : (s i).current = u.current :=
      hs.eq (f := State.current) (fun _ => rfl) i
    have hrun (i : ι) (ctx : Context) :
        (liftM Action.current >>= f i) ctx (s i)
          = f i u.current ctx (s i) := by
      rw [← hcurrent i]
      rfl
    simp only [hrun]
    exact (hf u.current).ends (fun hstrict => ⟨h hstrict, hs.clear hstrict⟩)
      c hs

theorem ite {c : Prop} [Decidable c] {x y : ι → Parse α}
    (hx : Abreast F K x) (hy : Abreast F K y) :
    Abreast F K fun i => if c then x i else y i := by
  split
  · exact hx
  · exact hy

/-- **A choice that all parses of a family that is not strict make
alike**, though they look at their options to make it. -/
theorem choose {c : ι → Prop} [∀ i, Decidable (c i)] {x y : ι → Parse α}
    (hc : ¬F.strict → (∀ i, c i) ∨ ∀ i, ¬c i) (hx : Abreast F False x)
    (hy : Abreast F False y) :
    Abreast F False fun i => if c i then x i else y i where
  grows i ctx s := by
    split
    · exact hx.grows i ctx s
    · exact hy.grows i ctx s
  ends h ctx u s hs := by
    rcases hc h with hc | hc
    · simp only [if_pos (hc _)]
      exact hx.ends h ctx hs
    · simp only [if_neg (hc _)]
      exact hy.ends h ctx hs

/-- **A look at the place** shows all parses the same. -/
theorem view {f : ι → State → Parse β} (blind : ∀ i s, f i s.sight = f i s)
    (hf : ∀ u, Abreast F K fun i => f i u) :
    Abreast F K fun i => get >>= f i where
  grows i c s := (hf s).grows i c s
  ends h c u s hs := by
    have hrun (i : ι) (ctx : Context) :
        (get >>= f i) ctx (s i) = f i u ctx (s i) :=
      congrFun (congrFun (hs.eq (blind i) i) _) _
    simp only [hrun]
    exact (hf u).ends h c hs

/-- **A look at the options** shows each parse its own. -/
theorem askOptions {f : ι → Context → Parse β}
    (hf : ∀ c : Context,
      Abreast F K fun i => f i (c.withOptions (F.options i))) :
    Abreast F K fun i => read >>= f i where
  grows i c s := (hf c).grows i c s
  ends h c _ _ hs := (hf c).ends h c hs

/-- **A look at the context** shows all parses the same, options aside. -/
theorem consult {f : ι → Context → Parse β}
    (blind : ∀ i c options, f i (c.withOptions options) = f i c)
    (hf : ∀ c, Abreast F K fun i => f i c) :
    Abreast F K fun i => read >>= f i := by
  refine .askOptions fun c => ?_
  simp only [blind]
  exact hf c

/-- A production in another context of the same run. -/
theorem withReader {x : ι → Parse α} {k : Context → Context}
    (hk : ∀ c options, k (c.withOptions options) = (k c).withOptions options)
    (hx : Abreast F K x) :
    Abreast F K fun i => (withReader k (x i) : Parse α) where
  grows i c s := by
    have h := hx.grows i (k c) s
    rw [← hk] at h
    exact ⟨h.isPrefix, fun ht => h.aborted_eq (by rw [hk]; exact ht)⟩
  ends h c u s hs := by
    have h := hx.ends h (k c) hs
    simp only [← hk] at h
    exact h

end Abreast

end Parse

end ScriptTree
