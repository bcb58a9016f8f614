import ScriptTree.Proofs.Mirror.Basic

/-!
# What a production does in both texts

A production is run in the first text from a state, and what is run in the
other text from a state beside it does the same: it has the same answer,
at its own place, and ends beside the state in which the first one ends.
This is `Parse.Mirrors`. It is claimed of runs that end well in the first
text, under an assumption (`H`) on the states they start from, and with
no marked node in the answer.

Whether a run ends well is a statement about the state it ends in (`E`),
and it must be passed on to where the run began (`Mirror.Backward`): that
all runs take steps only is therefore part of the bargain (`runs`), and
holds without any assumption. So is what becomes of marked nodes
(`marks`): if there is one in what has been read before (`B`), there is
one in the answer.
-/

namespace ScriptTree

variable {M : Mirror} {E E' : State → Prop} {H H' B B' : Prop}
  {ctx : Context} {s s' t t' : State} {S S' : State → State → Prop}
  {α β : Type} [HasNodes α] [HasNodes β] {μ : α → α} {ν : β → β}

namespace Mirror

/-- **What is true of a state if it is true of a later one**, and of none
outside the part. -/
class Backward (M : Mirror) (E : State → Prop) : Prop where
  /-- It is true before. -/
  back {s t : State} (h : s.Leads M.root t) (ht : E t) : E s
  /-- It is true inside the part. -/
  fits {s : State} (h : E s) : M.Fits s
  /-- It does not matter how many levels have been entered. -/
  of_atDepth {s : State} {depth : Option Nat} (h : E (s.atDepth depth)) :
    E s

section Ends

variable [M.Lawful]

instance : M.Backward M.Fits :=
  ⟨Lawful.fits_of_leads, id, Lawful.fits_of_atDepth⟩

theorem More.fits (h : M.More s) : M.Fits s := by
  obtain ⟨t, hst, ht, _⟩ := h
  exact Lawful.fits_of_leads hst ht

instance : M.Backward M.More where
  back h := by
    rintro ⟨u, hu, hfits, hpast⟩
    exact ⟨u, h.trans hu, hfits, Nat.lt_of_le_of_lt h.here_le hpast⟩
  fits := More.fits
  of_atDepth := by
    rintro s depth ⟨t, hst, ht, hpast⟩
    have ht : M.Fits ((t.atDepth s.depth).atDepth t.depth) := ht
    exact ⟨_, hst.atDepth s.depth, Lawful.fits_of_atDepth ht, hpast⟩

theorem Beyond.more (h : M.Beyond s) : M.More s := by
  obtain ⟨t, hst, _, ht⟩ := h
  exact Backward.back hst ht

instance : M.Backward M.Beyond where
  back h := by
    rintro ⟨u, hu, hpast, hmore⟩
    exact ⟨u, h.trans hu, Nat.lt_of_le_of_lt h.here_le hpast, hmore⟩
  fits h := h.more.fits
  of_atDepth := by
    rintro s depth ⟨t, hst, hpast, ht⟩
    have ht : M.More ((t.atDepth s.depth).atDepth t.depth) := ht
    exact ⟨_, hst.atDepth s.depth, hpast, Backward.of_atDepth M ht⟩

/-- Nothing more is read where the part has ended. -/
theorem Over.not_more (h : M.Over s s') : ¬M.More s := by
  rintro ⟨t, hst, ht, hpast⟩
  exact Lawful.not_fits_of_past hst h.done
    (Nat.lt_of_le_of_lt h.good.consumedTo_le hpast) ht

/-- What is read is read inside the part. -/
theorem Start.fresh_of_more (h : M.Start s s') (hmore : M.More s) :
    M.Fresh s s' :=
  h.resolve_right (fun hover => hover.not_more hmore)

theorem At.inside_of_more (h : M.At s s') (hmore : M.More s) :
    M.Inside s s' :=
  h.resolve_right (fun hover => hover.not_more hmore)

end Ends

theorem Fresh.start (h : M.Fresh s s') : M.Start s s' := .inl h

theorem At.start (h : M.At s s') : M.Start s s' :=
  h.imp_left Inside.toFresh

theorem Along.start (h : M.Along s s') : M.Start s s' := h.at_.start

end Mirror

namespace Parse

/-- **What a production does in both texts.** -/
structure Mirrors (M : Mirror) (E : State → Prop) (H B : Prop) (μ : α → α)
    (p q : Parse α) (ctx : Context) (s s' : State)
    (S : State → State → Prop) : Prop where
  /-- It takes steps. -/
  runs : Ensures M.root p ctx s (fun _ _ => True)
  /-- It keeps what is marked. -/
  marks (h : B) (hctx : M.root.Within ctx) (hs : s.Good M.root) {a : α}
    {t : State} (hrun : p ctx s = (.ok a, t)) (ht : E t) : M.Marked a
  /-- It does the same in the other text. -/
  same (h : H) (hctx : M.root.Within ctx) (hs : s.Good M.root) {a : α}
    {t : State} (hrun : p ctx s = (.ok a, t)) (ht : E t)
    (hunmarked : ¬M.Marked a) :
    ∃ t', q (M.reflect ctx) s' = (.ok (μ a), t') ∧ S t t'

namespace Mirrors

variable {p q : Parse α}

theorem pure {a a' : α} (h : H → S s s') (hB : B → M.Marked a)
    (ha : a' = μ a) :
    Mirrors M E H B μ (pure a) (pure a') ctx s s' S where
  runs := .pure trivial
  marks h _ _ _ _ hrun _ := by
    cases hrun
    exact hB h
  same hH _ _ _ _ hrun _ _ := by
    cases hrun
    exact ⟨s', by rw [← ha]; rfl, h hH⟩

/-- A failure does not end well. -/
theorem throw (e : ParseError) {q : Parse α} :
    Mirrors M E H B μ (throw e) q ctx s s' S where
  runs := .throw e
  marks _ _ _ _ _ hrun _ := nomatch hrun
  same _ _ _ _ _ hrun _ _ := nomatch hrun

theorem mono (h : Mirrors M E H B μ p q ctx s s' S) (hH : H' → H)
    (hB : B' → B) (hE : ∀ t, E' t → E t)
    (hS : ∀ t t', S t t' → S' t t') :
    Mirrors M E' H' B' μ p q ctx s s' S' where
  runs := h.runs
  marks hB' hctx hs _ _ hrun ht := h.marks (hB hB') hctx hs hrun (hE _ ht)
  same hH' hctx hs _ _ hrun ht hunmarked := by
    obtain ⟨t', hq, hS'⟩ := h.same (hH hH') hctx hs hrun (hE _ ht) hunmarked
    exact ⟨t', hq, hS _ _ hS'⟩

/-- **One production after another**, where the run that is to end well
goes on, and something is known of what the first has read. What the first
reads may be marked and stays so. -/
theorem bindKnown {x x' : Parse α} {f f' : α → Parse β} {V : α → Prop}
    (hx : Mirrors M E' H B' μ x x' ctx s s' S)
    (hV : H → M.root.Within ctx → ∀ a t, x ctx s = (.ok a, t) → E' t → V a)
    (hf : ∀ a t t', Mirrors M E ((H ∧ S t t') ∧ V a) (B ∨ M.Marked a) ν
      (f a) (f' (μ a)) ctx t t' S')
    (hback : ∀ a t, Ensures M.root (f a) ctx t (fun _ u =>
      t.Leads M.root u → E u → E' t)) :
    Mirrors M E H (B ∨ B') ν (x >>= f) (x' >>= f') ctx s s' S' where
  runs := hx.runs.bind (fun a t _ _ => (hf a t t).runs)
  marks h hctx hs b u hrun hu := by
    rw [bind_run] at hrun
    match hxrun : x ctx s with
    | (.error e, t) => rw [hxrun] at hrun; cases hrun
    | (.ok a, t) =>
      rw [hxrun] at hrun
      obtain ⟨hst, _⟩ := hx.runs.of_run hctx hs hxrun
      obtain ⟨htu, hend⟩ := (hback a t).of_run hctx hst.good hrun
      exact (hf a t t).marks (h.imp_right fun h =>
        hx.marks h hctx hs hxrun (hend htu hu)) hctx hst.good hrun hu
  same h hctx hs b u hrun hu hunmarked := by
    rw [bind_run] at hrun
    match hxrun : x ctx s with
    | (.error e, t) => rw [hxrun] at hrun; cases hrun
    | (.ok a, t) =>
      rw [hxrun] at hrun
      obtain ⟨hst, _⟩ := hx.runs.of_run hctx hs hxrun
      obtain ⟨htu, hend⟩ := (hback a t).of_run hctx hst.good hrun
      -- A marked part would make a marked whole.
      have hpart : ¬M.Marked a := fun hmarked => hunmarked
        ((hf a t t).marks (.inr hmarked) hctx hst.good hrun hu)
      obtain ⟨t', hq, hS⟩ := hx.same h hctx hs hxrun (hend htu hu) hpart
      obtain ⟨u', hq', hS'⟩ := (hf a t t').same
        ⟨⟨h, hS⟩, hV h hctx a t hxrun (hend htu hu)⟩ hctx hst.good hrun hu
        hunmarked
      exact ⟨u', by rw [bind_run, hq]; exact hq', hS'⟩

/-- One production after another, where the run that is to end well goes
on. -/
theorem bindTo {x x' : Parse α} {f f' : α → Parse β}
    (hx : Mirrors M E' H B' μ x x' ctx s s' S)
    (hf : ∀ a t t', Mirrors M E (H ∧ S t t') (B ∨ M.Marked a) ν (f a)
      (f' (μ a)) ctx t t' S')
    (hback : ∀ a t, Ensures M.root (f a) ctx t (fun _ u =>
      t.Leads M.root u → E u → E' t)) :
    Mirrors M E H (B ∨ B') ν (x >>= f) (x' >>= f') ctx s s' S' :=
  hx.bindKnown (V := fun _ => True) (fun _ _ _ _ _ _ => trivial)
    (fun a t t' => (hf a t t').mono And.left id (fun _ => id)
      (fun _ _ => id)) hback

/-- One production after another, the first of which is given something
that may be marked. -/
theorem bindKept [hE : M.Backward E] {x x' : Parse α} {f f' : α → Parse β}
    (hx : Mirrors M E H B μ x x' ctx s s' S)
    (hf : ∀ a t t', Mirrors M E (H ∧ S t t') (M.Marked a) ν (f a)
      (f' (μ a)) ctx t t' S') :
    Mirrors M E H B ν (x >>= f) (x' >>= f') ctx s s' S' :=
  (hx.bindTo (B := False) (fun a t t' => (hf a t t').mono id
    (fun h => h.resolve_left id) (fun _ => id) (fun _ _ => id))
    (fun a t => (hf a t t).runs.mono
      (fun _ _ _ _ htu hu => hE.back htu hu))).mono id .inr (fun _ => id)
    (fun _ _ => id)

/-- **One production after another.** -/
theorem bind [hE : M.Backward E] {x x' : Parse α} {f f' : α → Parse β}
    (hx : Mirrors M E H False μ x x' ctx s s' S)
    (hf : ∀ a t t', Mirrors M E (H ∧ S t t') (B ∨ M.Marked a) ν (f a)
      (f' (μ a)) ctx t t' S') :
    Mirrors M E H B ν (x >>= f) (x' >>= f') ctx s s' S' :=
  (hx.bindTo hf (fun a t => (hf a t t).runs.mono
    (fun _ _ _ _ htu hu => hE.back htu hu))).mono id .inl (fun _ => id)
    (fun _ _ => id)

/-- One production after another, the second of which reads a token. -/
theorem bindMore [hE : M.Backward E] {x x' : Parse α} {f f' : α → Parse β}
    (hx : Mirrors M M.More H False μ x x' ctx s s' S)
    (hpast : ∀ a t, Ensures M.root (f a) ctx t
      (fun _ u => t.here < u.consumedTo))
    (hf : ∀ a t t', Mirrors M E (H ∧ S t t') (B ∨ M.Marked a) ν (f a)
      (f' (μ a)) ctx t t' S') :
    Mirrors M E H B ν (x >>= f) (x' >>= f') ctx s s' S' :=
  (hx.bindTo hf (fun a t => (hpast a t).mono
    (fun _ u _ hpast htu hu => ⟨u, htu, hE.fits hu, hpast⟩))).mono id .inl
    (fun _ => id) (fun _ _ => id)

/-- What is the same where a run ends well is the same where it goes
on. -/
theorem more [M.Lawful] (h : Mirrors M M.Fits H B μ p q ctx s s' S) :
    Mirrors M M.More H B μ p q ctx s s' S :=
  h.mono id id (fun _ => Mirror.More.fits) (fun _ _ => id)

/-- One production after another, where no nodes are kept of what the
first reads. -/
theorem seq [hE : M.Backward E] [Plain α] {x x' : Parse α}
    {f f' : α → Parse β} (hx : Mirrors M E H False μ x x' ctx s s' S)
    (hf : ∀ a t t', Mirrors M E (H ∧ S t t') B ν (f a) (f' (μ a)) ctx t t'
      S') :
    Mirrors M E H B ν (x >>= f) (x' >>= f') ctx s s' S' :=
  hx.bind (fun a t t' => (hf a t t').mono id
    (fun h => h.resolve_right (Mirror.not_marked a)) (fun _ => id)
    (fun _ _ => id))

omit [HasNodes α] in
/-- **Looking at the state** changes nothing. -/
theorem look {x x' : Parse α} {f f' : α → Parse β} (a a' : α)
    (hx : x ctx s = (.ok a, s)) (hx' : x' (M.reflect ctx) s' = (.ok a', s'))
    (hf : Mirrors M E H B ν (f a) (f' a') ctx s s' S) :
    Mirrors M E H B ν (x >>= f) (x' >>= f') ctx s s' S where
  runs := .look a hx hf.runs
  marks h hctx hs b u hrun hu := by
    rw [bind_run, hx] at hrun
    exact hf.marks h hctx hs hrun hu
  same h hctx hs b u hrun hu hunmarked := by
    rw [bind_run, hx] at hrun
    rw [bind_run, hx']
    exact hf.same h hctx hs hrun hu hunmarked

/-- **A choice that is the same in both texts.** -/
theorem ite {c c' : Prop} [Decidable c] [Decidable c']
    {x y x' y' : Parse α} (hc : H → (c' ↔ c))
    (hx : c → Mirrors M E H B μ x x' ctx s s' S)
    (hy : ¬c → Mirrors M E H B μ y y' ctx s s' S) :
    Mirrors M E H B μ (if c then x else y) (if c' then x' else y') ctx s s'
      S where
  runs := .ite (fun h => (hx h).runs) (fun h => (hy h).runs)
  marks h hctx hs a t hrun ht := by
    by_cases hcond : c
    · rw [if_pos hcond] at hrun
      exact (hx hcond).marks h hctx hs hrun ht
    · rw [if_neg hcond] at hrun
      exact (hy hcond).marks h hctx hs hrun ht
  same h hctx hs a t hrun ht hunmarked := by
    by_cases hcond : c
    · rw [if_pos hcond] at hrun
      rw [if_pos ((hc h).2 hcond)]
      exact (hx hcond).same h hctx hs hrun ht hunmarked
    · rw [if_neg hcond] at hrun
      rw [if_neg (fun h' => hcond ((hc h).1 h'))]
      exact (hy hcond).same h hctx hs hrun ht hunmarked

/-- What is run in the other text matters only by what it does. -/
theorem congr {q₁ q₂ : Parse α}
    (h : H → q₂ (M.reflect ctx) s' = q₁ (M.reflect ctx) s')
    (hq : Mirrors M E H B μ p q₁ ctx s s' S) :
    Mirrors M E H B μ p q₂ ctx s s' S where
  runs := hq.runs
  marks := hq.marks
  same hH hctx hs _ _ hrun ht hunmarked := by
    rw [h hH]
    exact hq.same hH hctx hs hrun ht hunmarked

/-- The same of what is run in the first text. -/
theorem congrRun {p₁ p₂ : Parse α} (h : p₂ ctx s = p₁ ctx s)
    (hp : Mirrors M E H B μ p₁ q ctx s s' S) :
    Mirrors M E H B μ p₂ q ctx s s' S where
  runs hctx hs := by
    rw [h]
    exact hp.runs hctx hs
  marks hB hctx hs _ _ hrun := hp.marks hB hctx hs (h.symm.trans hrun)
  same hH hctx hs _ _ hrun := hp.same hH hctx hs (h.symm.trans hrun)

/-- Nothing is claimed of a run that does not end well. -/
theorem never [hE : M.Backward E]
    (hp : Ensures M.root p ctx s (fun _ t => ¬M.Fits t)) :
    Mirrors M E H B μ p q ctx s s' S where
  runs := hp.mono (fun _ _ _ _ => trivial)
  marks _ hctx hs _ _ hrun ht :=
    absurd (hE.fits ht) (hp.of_run hctx hs hrun).2
  same _ hctx hs _ _ hrun ht _ :=
    absurd (hE.fits ht) (hp.of_run hctx hs hrun).2

/-- What is known where a run ends well may be used from the start. -/
theorem of_end {P : Prop} (h : Mirrors M E (H ∧ P) B μ p q ctx s s' S)
    (hP : H → ∀ a, M.root.Within ctx → s.Good M.root → ∀ t,
      p ctx s = (.ok a, t) → s.Leads M.root t → E t → P) :
    Mirrors M E H B μ p q ctx s s' S where
  runs := h.runs
  marks := h.marks
  same hH hctx hs a t hrun ht hunmarked := by
    obtain ⟨hst, _⟩ := h.runs.of_run hctx hs hrun
    exact h.same ⟨hH, hP hH a hctx hs t hrun hst ht⟩ hctx hs hrun ht
      hunmarked

/-- **A choice of which only one way ends well.** -/
theorem only [hE : M.Backward E] {c c' : Prop} [Decidable c]
    [Decidable c'] {x y x' y' : Parse α} (hc : H → c → c')
    (hx : c → Mirrors M E H B μ x x' ctx s s' S)
    (hy : ¬c → Ensures M.root y ctx s (fun _ t => ¬M.Fits t)) :
    Mirrors M E H B μ (if c then x else y) (if c' then x' else y') ctx s s'
      S := by
  by_cases h : c
  · rw [if_pos h]
    exact .congr (fun hH => by rw [if_pos (hc hH h)]) (hx h)
  · rw [if_neg h]
    exact .never (hy h)

/-- What is true in the end was true at the beginning. -/
theorem of_back [hE : M.Backward E]
    (h : Mirrors M E (H ∧ E s) B μ p q ctx s s' S) :
    Mirrors M E H B μ p q ctx s s' S :=
  h.of_end (fun _ _ _ _ _ _ hst ht => hE.back hst ht)

/-- A run that ends well goes on inside the part. -/
theorem of_fits [hE : M.Backward E]
    (h : Mirrors M E (H ∧ M.Fits s) B μ p q ctx s s' S) :
    Mirrors M E H B μ p q ctx s s' S :=
  h.of_end (fun _ _ _ _ _ _ hst ht => hE.fits (hE.back hst ht))

/-- **What reads the current token** is at no end. -/
theorem reading [hE : M.Backward E]
    (hp : Ensures M.root p ctx s (fun _ t => s.here < t.consumedTo))
    (h : Mirrors M E (H ∧ M.More s) B μ p q ctx s s' S) :
    Mirrors M E H B μ p q ctx s s' S :=
  h.of_end (fun _ _ hctx hs t hrun hst ht =>
    ⟨t, hst, hE.fits ht, (hp.of_run hctx hs hrun).2⟩)

/-- **What reads a token begins before it.** -/
theorem begin [M.Lawful] [M.Backward E]
    (hp : Ensures M.root p ctx s (fun _ t => s.here < t.consumedTo))
    (hstart : H → M.Start s s')
    (h : Mirrors M E (H ∧ M.Fresh s s') B μ p q ctx s s' S) :
    Mirrors M E H B μ p q ctx s s' S :=
  .reading hp (h.mono
    (fun h => ⟨h.1, (hstart h.1).fresh_of_more h.2⟩) id (fun _ => id)
    (fun _ _ => id))

/-- A production in another context of the same run. -/
theorem withReader {k : Context → Context}
    (hk : M.root.Within ctx → M.root.Within (k ctx))
    (hreflect : M.reflect (k ctx) = k (M.reflect ctx))
    (h : Mirrors M E H B μ p q (k ctx) s s' S) :
    Mirrors M E H B μ (withReader k p : Parse α) (withReader k q) ctx s s'
      S where
  runs := .withReader hk h.runs
  marks hB hctx hs _ _ hrun ht := h.marks hB (hk hctx) hs hrun ht
  same hH hctx hs _ _ hrun ht hunmarked := by
    obtain ⟨t', hq, hS⟩ := h.same hH (hk hctx) hs hrun ht hunmarked
    rw [hreflect] at hq
    exact ⟨t', hq, hS⟩

/-- **A production that counts as a level.** -/
theorem guarded [hE : M.Backward E]
    (h : Mirrors M E H B μ p q ctx s.enter s'.enter S)
    (hS : ∀ t t', S t t' → S t.leave t'.leave) :
    Mirrors M E H B μ (guarded p) (guarded q) ctx s s' S where
  runs := h.runs.guarded (fun _ _ => id)
  marks hB hctx hs a t hrun ht := by
    rw [guarded_run] at hrun
    obtain ⟨hok, rfl⟩ := Prod.mk.inj hrun
    exact h.marks hB hctx (hs.atDepth _) (Prod.ext hok rfl)
      (hE.of_atDepth ht)
  same hH hctx hs a t hrun ht hunmarked := by
    rw [guarded_run] at hrun
    obtain ⟨hok, rfl⟩ := Prod.mk.inj hrun
    obtain ⟨t', hq, hS'⟩ := h.same hH hctx (hs.atDepth _)
      (Prod.ext hok rfl) (hE.of_atDepth ht) hunmarked
    exact ⟨t'.leave, by rw [guarded_run, hq], hS _ _ hS'⟩

theorem map {p q : Parse α} {f f' : α → β} [hE : M.Backward E]
    (h : Mirrors M E H False μ p q ctx s s' S)
    (hf : ∀ a, f' (μ a) = ν (f a))
    (hB : ∀ a, B ∨ M.Marked a → M.Marked (f a)) :
    Mirrors M E H B ν (f <$> p) (f' <$> q) ctx s s' S := by
  simp only [map_eq_pure_bind]
  exact h.bind (fun a _ _ => .pure And.right (hB a) (hf a))

theorem discard {p q : Parse α} [hE : M.Backward E] [Plain α]
    (h : Mirrors M E H False μ p q ctx s s' S) :
    Mirrors M E H False id (Functor.discard p) (Functor.discard q) ctx s s'
      S :=
  h.map (fun _ => rfl)
    (fun a h => (h.resolve_left id |> Mirror.not_marked a).elim)

end Mirrors

end Parse

end ScriptTree
