import ScriptTree.Proofs.Account.Grammar
import ScriptTree.Proofs.Derive.Replay

/-!
# What productions derive

A production *derives* what is claimed of its answer if it takes acts only
and its run can be replayed: in the other text it has the same answer and
ends beside the state the first run ends in, unless it has been asked for a
line break where the texts differ. It is claimed of runs with an answer.

The claim is one about the gaps that have been consulted so far (`K`), the
answer and the state the run ends in; what is claimed most often is that the
answer comes out of the run (`Replay.Yields`). Both are given from where a
construct begins: each production adds to the gaps and to the trees that
were there before (`Parse.Derives.after`).
-/

namespace ScriptTree

variable {root ctx ctx' : Context} {R : Replay root} {K K' : Set Mark}
  {r s t u : State} {F ns ns' : List Node} {α β : Type}

open State

/-! ## Trees that come out of a run -/

namespace Replay

/-- **Trees that come out of a run** from one state to another, as far as
it is part of one that ends well. -/
structure Yields (R : Replay root) (ctx : Context) (K : Set Mark)
    (s : State) (ns : List Node) (t : State) : Prop where
  /-- The run is one of acts. -/
  acts : Acts root s t
  /-- The trees are derived. -/
  tree (hfits : R.Fits t) :
    Derivation root ctx.listEnd ctx.newlinesMatter K s ns t

namespace Yields

theorem refl (ctx : Context) : R.Yields ctx ∅ s [] s :=
  ⟨.refl, fun _ => .refl⟩

/-- Where a run does not end well nothing has to come out of it. -/
theorem of_unfit (h : Acts root s t) (hunfit : ¬R.Fits t) :
    R.Yields ctx K s ns t :=
  ⟨h, fun hfits => absurd hfits hunfit⟩

/-- **One run follows another.** -/
theorem trans (h : R.Yields ctx K s ns t) (h' : R.Yields ctx K' t ns' u) :
    R.Yields ctx (K ∪ K') s (ns ++ ns') u :=
  ⟨h.acts.trans h'.acts, fun hfits =>
    (h.tree (R.fits_of_acts h'.acts hfits)).append (h'.tree hfits)⟩

/-- What is done behind need not be in a tree. -/
theorem past (h : R.Yields ctx K s ns t) (hacts : Acts root t u)
    (h' : Derivation root ctx.listEnd ctx.newlinesMatter ∅ t [] u) :
    R.Yields ctx K s ns u :=
  ⟨h.acts.trans hacts, fun hfits =>
    (h.tree (R.fits_of_acts hacts hfits)).past h'⟩

/-- A token is read behind. -/
theorem bump (h : R.Yields ctx K s ns t) (heof : t.current.isEof = false) :
    R.Yields ctx K s ns (t.bump root) :=
  h.past (.single (.bump heof)) (.token heof)

/-- A token is read. -/
theorem token (heof : s.current.isEof = false) :
    R.Yields ctx ∅ s [] (s.bump root) :=
  (refl ctx).bump heof

/-- Nothing is read behind. -/
theorem rest (h : R.Yields ctx K s ns t) (hacts : Acts root t u)
    (hstill : t.Still u) : R.Yields ctx K s ns u :=
  h.past hacts (.rest hacts hstill)

/-- **A line break is asked for** behind what was read. -/
theorem asks (h : R.Yields ctx K s ns t)
    (hmatter : ctx.newlinesMatter = true) :
    R.Yields ctx (K ∪ t.question) s ns t := by
  refine ⟨h.acts, fun hfits => ?_⟩
  have htree := h.tree hfits
  rw [hmatter] at htree ⊢
  exact htree.asks

/-- **A node that needs no terminator** is made of what was read, its parts
between brackets where line breaks did not matter. -/
theorem wrapFreed {n : Node} (h : R.Yields ctx K s n.children t)
    (hbracketed : n.isBracketed = false) (hinside : ∀ e, n.inside e = e)
    (hends : n.terminator? = none) (hfreed : ∀ p ∈ n.freed, p.FreeIn K) :
    R.Yields ctx K s [n] t :=
  ⟨h.acts, fun hfits =>
    (h.tree hfits).wrap hbracketed (hinside _) hends hfreed⟩

/-- Most nodes have no such parts. -/
theorem wrap {n : Node} (h : R.Yields ctx K s n.children t)
    (hbracketed : n.isBracketed = false) (hinside : ∀ e, n.inside e = e)
    (hends : n.terminator? = none) (hfreed : n.freed = []) :
    R.Yields ctx K s [n] t :=
  h.wrapFreed hbracketed hinside hends (Node.freeIn_of_nil hfreed)

/-- **A statement** is made of what was read, and ends where it may. -/
theorem statement {x : Statement} (h : R.Yields ctx' K s x.children t)
    (hinside : (Node.statement x).inside ctx.listEnd = ctx'.listEnd)
    (hmatter : ctx'.newlinesMatter = ctx.newlinesMatter)
    (hfreed : ∀ p ∈ (Node.statement x).freed, p.FreeIn K)
    (hends : R.Fits t → (Node.statement x).EndsAt ctx.listEnd s t) :
    R.Yields ctx K s [.statement x] t := by
  refine ⟨h.acts, fun hfits => .node rfl ?_ hfreed (hends hfits)⟩
  rw [hinside, ← hmatter]
  exact h.tree hfits

/-- It does not matter whether `in` is an operator. -/
theorem withIn (h : R.Yields ctx.withoutIn K s ns t) :
    R.Yields ctx K s ns t :=
  ⟨h.acts, h.tree⟩

/-- **What is read between brackets** is marked as free outside of them. -/
theorem out (h : R.Yields ctx.inBrackets K s ns t) :
    R.Yields ctx (insert (.free s.here t.consumedTo) K) s ns t :=
  ⟨h.acts, fun hfits => .free (h.tree hfits)⟩

/-- **Trees that are no statements** may be those of any statement list. -/
theorem inList (h : R.Yields ctx K s ns t)
    (hmatter : ctx.newlinesMatter = true)
    (hns : ∀ n ∈ ns, n.isStatement = false) (e : ListEnd) :
    R.Yields (ctx.inList e) K s ns t := by
  refine ⟨h.acts, fun hfits => ?_⟩
  have htree := h.tree hfits
  rw [hmatter] at htree
  exact htree.inList hns e

/-- **What is read inside a level** is read outside of it. -/
theorem leave (h : R.Yields ctx K s.enter ns t) (hs : Acts root s s.enter)
    (ht : Acts root t t.leave) : R.Yields ctx K s ns t.leave :=
  ⟨(hs.trans h.acts).trans ht, fun hfits =>
    (h.tree (R.fits_of_acts ht hfits)).leave⟩

end Yields

/-- **Trees that come out of a run between two tokens**, and these are read
as well. -/
structure Encloses (R : Replay root) (ctx : Context) (K : Set Mark)
    (s : State) (ns : List Node) (t : State) : Prop where
  /-- There is a token in front. -/
  opener : s.current.isEof = false
  /-- There is one behind. -/
  closer : ∃ u, u.current.isEof = false ∧ t = u.bump root
    ∧ R.Yields ctx K (s.bump root) ns u

namespace Encloses

/-- The tokens may be left out of account. They are free, too. -/
theorem plain (h : R.Encloses ctx.inBrackets K s ns t) :
    R.Yields ctx (insert (.free s.here t.consumedTo) K) s ns t := by
  obtain ⟨hopener, u, hcloser, rfl, hyields⟩ := h
  have hfirst : R.Yields ctx.inBrackets ∅ s [] (s.bump root) := .token hopener
  have hall := hfirst.trans hyields
  rw [Set.empty_union] at hall
  exact (hall.bump hcloser).out

/-- **A node in brackets** is made of what was read between them. -/
theorem node {n : Node} (h : R.Encloses ctx' K s n.children t)
    (hbracketed : n.isBracketed = true)
    (hquiet : ctx'.newlinesMatter = true → n.isBlock = true)
    (hinside : n.inside ctx.listEnd = ctx'.listEnd)
    (hspan : n.span = t.spanFrom s.here) : R.Yields ctx K s [n] t := by
  obtain ⟨hopener, u, hcloser, rfl, hyields⟩ := h
  have hfirst : Acts root s (s.bump root) := .single (.bump hopener)
  have hlast : Acts root u (u.bump root) := .single (.bump hcloser)
  refine ⟨(hfirst.trans hyields.acts).trans hlast, fun hfits => ?_⟩
  refine .bracket hbracketed hquiet hopener ?_ hcloser hspan
  rw [hinside]
  exact hyields.tree (R.fits_of_acts hlast hfits)

end Encloses

end Replay

/-! ## Productions -/

namespace Parse

/-- **What a production derives**, run in a context from a state before
which some gaps have been consulted. -/
def Derives (R : Replay root) (K : Set Mark) (p : Parse α) (ctx : Context)
    (s : State) (Q : Set Mark → α → State → Prop) : Prop :=
  root.Within ctx → s.Reached root → ∀ a t, p ctx s = (.ok a, t) →
    Acts root s t ∧ ∃ K', K ⊆ K' ∧ Q K' a t
      ∧ (R.Fits t → R.Clear K' → ∀ s', R.Beside s s' →
        ∃ t', p (R.reflect ctx) s' = (.ok a, t') ∧ R.Beside t t')

namespace Derives

variable {Q : Set Mark → α → State → Prop} {Q' : Set Mark → β → State → Prop}

theorem pure {a : α} (h : Q K a s) :
    Derives R K (pure a : Parse α) ctx s Q := by
  intro _ _ b t hrun
  cases hrun
  exact ⟨.refl, K, subset_rfl, h, fun _ _ s' hs' => ⟨s', rfl, hs'⟩⟩

/-- More marks may be left behind than are known of. -/
theorem pureMarked {a : α} (hK : K ⊆ K') (h : Q K' a s) :
    Derives R K (Pure.pure a : Parse α) ctx s Q := by
  intro _ _ b t hrun
  cases hrun
  exact ⟨.refl, K', hK, h, fun _ _ s' hs' => ⟨s', rfl, hs'⟩⟩

/-- Whatever is derived is derived in a run of the parse. -/
theorem reached {p : Parse α}
    (h : s.Reached root → Derives R K p ctx s Q) :
    Derives R K p ctx s Q :=
  fun hctx hs => h hs hctx hs

/-- **More marks** are left behind. -/
theorem marks {p : Parse α} {Q' : Set Mark → α → State → Prop}
    (hp : Derives R K p ctx s Q)
    (h : ∀ K' a t, K ⊆ K' → Q K' a t → ∃ K'', K' ⊆ K'' ∧ Q' K'' a t) :
    Derives R K p ctx s Q' := by
  intro hctx hs a t hrun
  obtain ⟨hst, K', hK, hQ, hsame⟩ := hp hctx hs a t hrun
  obtain ⟨K'', hK', hQ'⟩ := h K' a t hK hQ
  exact ⟨hst, K'', hK.trans hK', hQ', fun hfits hclear =>
    hsame hfits (hclear.mono hK')⟩

/-- The marks that were there before stay. -/
theorem grows {p : Parse α} (hp : Derives R K p ctx s Q) :
    Derives R K p ctx s (fun K' a t => K ⊆ K' ∧ Q K' a t) :=
  hp.marks (fun K' _ _ hK hQ => ⟨K', subset_rfl, hK, hQ⟩)

/-- Nothing is claimed of a failure. -/
theorem never {p : Parse α} (h : ∀ a t, p ctx s ≠ (.ok a, t)) :
    Derives R K p ctx s Q :=
  fun _ _ a t hrun => absurd hrun (h a t)

theorem throw {e : ParseError} :
    Derives R K (throw e : Parse α) ctx s Q :=
  never (fun _ _ h => nomatch h)

theorem mono {p : Parse α} {Q' : Set Mark → α → State → Prop}
    (hp : Derives R K p ctx s Q)
    (h : ∀ K' a t, Acts root s t → Q K' a t → Q' K' a t) :
    Derives R K p ctx s Q' := by
  intro hctx hs a t hrun
  obtain ⟨hst, K', hK, hQ, hsame⟩ := hp hctx hs a t hrun
  exact ⟨hst, K', hK, h K' a t hst hQ, hsame⟩

/-- A production may be replaced by one that does the same. -/
theorem congr {p q : Parse α} (h : p ctx s = q ctx s)
    (h' : R.Fits s → ∀ s', R.Beside s s' →
      p (R.reflect ctx) s' = q (R.reflect ctx) s')
    (hq : Derives R K q ctx s Q) : Derives R K p ctx s Q := by
  intro hctx hs a t hrun
  obtain ⟨hst, K', hK, hQ, hsame⟩ := hq hctx hs a t (h.symm.trans hrun)
  refine ⟨hst, K', hK, hQ, fun hfits hclear s' hs' => ?_⟩
  rw [h' (R.fits_of_acts hst hfits) s' hs']
  exact hsame hfits hclear s' hs'

/-- **One production after another.** -/
theorem bind {x : Parse α} {f : α → Parse β} (hx : Derives R K x ctx s Q)
    (hf : ∀ K' a t, Acts root s t → Q K' a t →
      Derives R K' (f a) ctx t Q') :
    Derives R K (x >>= f) ctx s Q' := by
  intro hctx hs b u hrun
  rw [bind_run] at hrun
  match hxrun : x ctx s with
  | (.error e, t) => rw [hxrun] at hrun; cases hrun
  | (.ok a, t) =>
    rw [hxrun] at hrun
    obtain ⟨hst, K', hK, hQ, hsame⟩ := hx hctx hs a t hxrun
    obtain ⟨htu, K'', hK', hQ', hsame'⟩ :=
      hf K' a t hst hQ hctx (hs.acts hst) b u hrun
    refine ⟨hst.trans htu, K'', hK.trans hK', hQ',
      fun hfits hclear s' hs' => ?_⟩
    obtain ⟨t', ht', hbeside⟩ := hsame (R.fits_of_acts htu hfits)
      (hclear.mono hK') s' hs'
    obtain ⟨u', hu', hbeside'⟩ := hsame' hfits hclear t' hbeside
    exact ⟨u', by rw [bind_run, ht']; exact hu', hbeside'⟩

/-- **Looking at the state** changes nothing, and what is seen is the same
in both texts. -/
theorem look {x : Parse α} {f : α → Parse β} {a : α}
    (hx : x ctx s = (.ok a, s))
    (hx' : R.Fits s → ∀ s', R.Beside s s' →
      x (R.reflect ctx) s' = (.ok a, s'))
    (hf : Derives R K (f a) ctx s Q') :
    Derives R K (x >>= f) ctx s Q' := by
  refine congr ?_ (fun hfits s' hs' => ?_) hf
  · rw [bind_run, hx]
  · rw [bind_run, hx' hfits s' hs']

/-- **The gap in front of the current token is consulted**: what is seen is
the same in both texts unless they differ there. -/
theorem consult {x : Parse α} {f : α → Parse β} {a : α}
    (hx : x ctx s = (.ok a, s))
    (hx' : R.Fits s → (∀ q ∈ R.spots, q ∉ s.gap) → ∀ s', R.Beside s s' →
      x (R.reflect ctx) s' = (.ok a, s'))
    (hf : Derives R (K ∪ s.question) (f a) ctx s Q') :
    Derives R K (x >>= f) ctx s Q' := by
  intro hctx hs b u hrun
  rw [bind_run, hx] at hrun
  obtain ⟨hsu, K', hK, hQ, hsame⟩ := hf hctx hs b u hrun
  refine ⟨hsu, K', (Set.union_subset_iff.1 hK).1, hQ,
    fun hfits hclear s' hs' => ?_⟩
  obtain ⟨u', hu', hbeside⟩ := hsame hfits hclear s' hs'
  refine ⟨u', ?_, hbeside⟩
  rw [bind_run, hx' (R.fits_of_acts hsu hfits)
    (fun q hq hmem => hclear q hq (hK (.inr (asked_mem_question.2 hmem)))) s'
    hs']
  exact hu'

/-- A question about the current token, whatever its line and column. -/
theorem ask {x : Parse α} {f : α → Parse β} (c : Token → α)
    (hx : ∀ ctx s, x ctx s = (.ok (c s.current), s))
    (hc : ∀ position,
      c { s.current with position := position } = c s.current)
    (hf : Derives R K (f (c s.current)) ctx s Q') :
    Derives R K (x >>= f) ctx s Q' := by
  refine look (hx ctx s) (fun _ s' hs' => ?_) hf
  rw [hx, R.current hs', hc]

/-- **The current token** is looked at, its line and column aside. -/
theorem current {f : Token → Parse β}
    (hpos : ∀ position,
      f { s.current with position := position } = f s.current)
    (hf : Derives R K (f s.current) ctx s Q') :
    Derives R K (liftM Action.current >>= f) ctx s Q' := by
  refine congr (q := f s.current) rfl (fun _ s' hs' => ?_) hf
  show f s'.current _ _ = _
  rw [R.current hs', hpos]

/-- **The token behind it** is looked at, if the current one cannot be read
again. -/
theorem peek {f : Token → Parse β} (hslash : s.current.isSlash = false)
    (hpos : ∀ position,
      f { s.scanner.peek with position := position } = f s.scanner.peek)
    (hf : Derives R K (f s.scanner.peek) ctx s Q') :
    Derives R K (liftM Action.peek >>= f) ctx s Q' := by
  refine congr (q := f s.scanner.peek) rfl (fun hfits s' hs' => ?_) hf
  show f s'.scanner.peek _ _ = _
  have hagrees : s.scanner.peek.Agrees s'.scanner.peek :=
    (R.next (R.even hs' hfits hslash)).1
  rw [hagrees, hpos]

/-- Where the current token begins. -/
theorem here {f : Nat → Parse β} (hf : Derives R K (f s.here) ctx s Q') :
    Derives R K (liftM Action.here >>= f) ctx s Q' :=
  ask (·.span.start) (fun _ _ => rfl) (fun _ => rfl) hf

/-- What has been read since an offset. -/
theorem span {f : Span → Parse β} {start : Nat}
    (hf : Derives R K (f (s.spanFrom start)) ctx s Q') :
    Derives R K (liftM (Action.spanFrom start) >>= f) ctx s Q' := by
  refine look rfl (fun _ s' hs' => ?_) hf
  show (Except.ok (s'.spanFrom start), s') = _
  unfold State.spanFrom
  rw [R.consumedTo_eq hs']

/-- The context is looked at, the text aside. -/
theorem askContext {f : Context → Parse β} (hpos : f (R.reflect ctx) = f ctx)
    (hf : Derives R K (f ctx) ctx s Q') :
    Derives R K (read >>= f) ctx s Q' :=
  congr (q := f ctx) rfl (fun _ s' _ => congrFun (congrFun hpos _) s') hf

/-- **The state is looked at**, as far as it is the same in both texts. -/
theorem view {f : State → Parse β}
    (hpos : R.Fits s → ∀ s', R.Beside s s' → f s' = f s)
    (hf : Derives R K (f s) ctx s Q') :
    Derives R K (get >>= f) ctx s Q' := by
  refine congr (q := f s) rfl (fun hfits s' hs' => ?_) hf
  show f s' _ _ = _
  rw [hpos hfits s' hs']

theorem ite {c : Prop} [Decidable c] {x y : Parse α}
    (hx : c → Derives R K x ctx s Q) (hy : ¬c → Derives R K y ctx s Q) :
    Derives R K (if c then x else y) ctx s Q := by
  split
  · exact hx ‹c›
  · exact hy ‹¬c›

theorem map {x : Parse α} {f : α → β}
    (hx : Derives R K x ctx s (fun K' a t => Q' K' (f a) t)) :
    Derives R K (f <$> x) ctx s Q' := by
  rw [map_eq_pure_bind]
  exact hx.bind (fun _ _ _ _ h => .pure h)

theorem discard {x : Parse α} {Q : Set Mark → State → Prop}
    (hx : Derives R K x ctx s (fun K' _ t => Q K' t)) :
    Derives R K (Functor.discard x) ctx s (fun K' _ t => Q K' t) :=
  map hx

/-- What a production is given an account of may be used of its answer. -/
theorem and_accounts {p : Parse α} {Q' : α → State → Prop}
    (hp : Derives R K p ctx s Q) (h : Accounts root p ctx s Q') :
    Derives R K p ctx s (fun K' a t => Q K' a t ∧ Q' a t) := by
  intro hctx hs a t hrun
  obtain ⟨hst, K', hK, hQ, hsame⟩ := hp hctx hs a t hrun
  obtain ⟨_, hQ', _⟩ := h hctx hs
  rw [hrun] at hQ'
  exact ⟨hst, K', hK, ⟨hQ, hQ' a rfl⟩, hsame⟩

/-- So may what it ensures. -/
theorem and_ensures {p : Parse α} {Q' : α → State → Prop}
    (hp : Derives R K p ctx s Q) (h : Ensures root p ctx s Q') :
    Derives R K p ctx s (fun K' a t => Q K' a t ∧ Q' a t) := by
  intro hctx hs a t hrun
  obtain ⟨hst, K', hK, hQ, hsame⟩ := hp hctx hs a t hrun
  exact ⟨hst, K', hK, ⟨hQ, (h.of_run hctx hs.good hrun).2⟩, hsame⟩

/-- **Nothing is claimed of a run that does not end well**, apart from what
is claimed of all of them. -/
theorem unfit {p : Parse α}
    (h : Accounts root p ctx s (fun _ t => ¬t.Quiet root))
    (hQ : ∀ a t, Acts root s t → ¬R.Fits t → Q K a t) :
    Derives R K p ctx s Q := by
  intro hctx hs a t hrun
  obtain ⟨hst, hquiet, _⟩ := h hctx hs
  rw [hrun] at hst hquiet
  have hunfit : ¬R.Fits t := fun hfits => hquiet a rfl (R.quiet hfits)
  exact ⟨hst, K, subset_rfl, hQ a t hst hunfit,
    fun hfits => absurd hfits hunfit⟩

/-- **A construct begins before a production**, which adds what it derives.
What else is known of its answer remains so. -/
theorem afterAnd {p : Parse α} {parts : α → List Node}
    {V : α → State → Prop}
    (hp : Derives R ∅ p ctx s
      (fun K' a t => R.Yields ctx' K' s (parts a) t ∧ V a t))
    (hF : R.Yields ctx' K r F s) :
    Derives R K p ctx s
      (fun K' a t => R.Yields ctx' K' r (F ++ parts a) t ∧ V a t) := by
  intro hctx hs a t hrun
  obtain ⟨hst, K', _, hQ, hsame⟩ := hp hctx hs a t hrun
  exact ⟨hst, K ∪ K', Set.subset_union_left, ⟨hF.trans hQ.1, hQ.2⟩,
    fun hfits hclear => hsame hfits (hclear.mono Set.subset_union_right)⟩

theorem after {p : Parse α} {parts : α → List Node}
    (hp : Derives R ∅ p ctx s
      (fun K' a t => R.Yields ctx' K' s (parts a) t))
    (hF : R.Yields ctx' K r F s) :
    Derives R K p ctx s
      (fun K' a t => R.Yields ctx' K' r (F ++ parts a) t) := by
  have hand : Derives R ∅ p ctx s
      (fun K' a t => R.Yields ctx' K' s (parts a) t ∧ True) :=
    hp.mono (fun _ _ _ _ h => ⟨h, trivial⟩)
  exact (hand.afterAnd hF).mono (fun _ _ _ _ h => h.1)

/-- A production in another context of the same run. -/
theorem withReader {p : Parse α} {k : Context → Context}
    (hk : root.Within ctx → root.Within (k ctx))
    (hreflect : R.reflect (k ctx) = k (R.reflect ctx))
    (hp : Derives R K p (k ctx) s Q) :
    Derives R K (withReader k p : Parse α) ctx s Q := by
  intro hctx hs a t hrun
  obtain ⟨hst, K', hK, hQ, hsame⟩ := hp (hk hctx) hs a t hrun
  rw [hreflect] at hsame
  exact ⟨hst, K', hK, hQ, hsame⟩

/-- **A production that counts as a level.** -/
theorem guarded {p : Parse α} {Q' : Set Mark → α → State → Prop}
    (hp : Derives R K p ctx s.enter Q)
    (hleave : ∀ K' a t, Acts root s s.enter → Acts root t t.leave →
      Q K' a t → Q' K' a t.leave) :
    Derives R K (guarded p) ctx s Q' := by
  intro hctx hs a t hrun
  rw [guarded_run] at hrun
  obtain ⟨hok, rfl⟩ := Prod.mk.inj hrun
  have henter : Acts root s s.enter := .single (.level _)
  have hlast : ∀ {t : State}, Acts root t t.leave := .single (.level _)
  obtain ⟨hst, K', hK, hQ, hsame⟩ :=
    hp hctx (hs.acts henter) a _ (Prod.ext hok rfl)
  refine ⟨(henter.trans hst).trans hlast, K', hK,
    hleave K' a _ henter hlast hQ, fun hfits hclear s' hs' => ?_⟩
  obtain ⟨t', ht', hbeside⟩ := hsame (R.fits_of_acts hlast hfits) hclear
    s'.enter (R.atDepth hs' _ _)
  exact ⟨t'.leave, by rw [guarded_run, ht'], R.atDepth hbeside _ _⟩

/-! ### Failures that are mended -/

/-- **A production at a tolerant point.** Where a failure was mended the run
does not end well. -/
theorem tolerant [Mendable α] {point : TolerantPoint} {p : Parse α}
    {V : α → State → Prop} (hp : Derives R K p ctx s Q)
    (hfounded : Accounts root p ctx s V)
    (hQ : ∀ a t, Acts root s t → ¬R.Fits t → Q K a t) :
    Derives R K (tolerant point p) ctx s Q := by
  intro hctx hs a t hrun
  obtain ⟨hst, _, herror⟩ := hfounded hctx hs
  rw [tolerant_run] at hrun
  match hprun : p ctx s with
  | (.ok b, u) =>
    rw [hprun] at hrun
    obtain ⟨rfl, rfl⟩ : b = a ∧ u = t := by
      cases hrun
      exact ⟨rfl, rfl⟩
    obtain ⟨hst, K', hK, hQ, hsame⟩ := hp hctx hs b u hprun
    refine ⟨hst, K', hK, hQ, fun hfits hclear s' hs' => ?_⟩
    obtain ⟨t', ht', hbeside⟩ := hsame hfits hclear s' hs'
    exact ⟨t', by rw [tolerant_run, ht'], hbeside⟩
  | (.error e, u) =>
    rw [hprun] at hrun hst herror
    have hmended : Accounts root
        (Mendable.ofError <$> mend point s.here e : Parse α) ctx u
        (fun _ t => ¬t.Clean root) :=
      .map (mend_accounts point _ (fun _ => herror e rfl))
    obtain ⟨hut, hclean, _⟩ := hmended hctx (hs.acts hst)
    dsimp only at hrun
    rw [hrun] at hut hclean
    have hunfit : ¬R.Fits t := fun hfits =>
      hclean a rfl (R.quiet hfits).toClean
    exact ⟨hst.trans hut, K, subset_rfl, hQ a t (hst.trans hut) hunfit,
      fun hfits => absurd hfits hunfit⟩

/-- **A production as an action**, and what is done about its failure. After
a failure no run ends well. -/
theorem attempt {p : Parse α} {f : Except ParseError α → Action β}
    {V : α → State → Prop} (hp : Derives R K p ctx s Q)
    (hfounded : Accounts root p ctx s V)
    (hok : ∀ K' a t, Acts root s t → Q K' a t →
      Derives R K' (liftM (f (.ok a))) ctx t Q')
    (herror : ∀ e t, Acts root s t → e.Founded root t →
      Action.Accounts root (f (.error e)) ctx t (fun _ u => ¬u.Clean root))
    (hQ : ∀ b u, Acts root s u → ¬R.Fits u → Q' K b u) :
    Derives R K (liftM (Action.attempt p >>= f)) ctx s Q' := by
  intro hctx hs b u hrun
  have hattempt : ∀ ctx s, (liftM (Action.attempt p >>= f) : Parse β) ctx s
      = (liftM (f (p ctx s).1) : Parse β) ctx (p ctx s).2 :=
    fun _ _ => rfl
  rw [hattempt] at hrun
  match hprun : p ctx s with
  | (.ok a, t) =>
    rw [hprun] at hrun
    obtain ⟨hst, K', hK, hQ₀, hsame⟩ := hp hctx hs a t hprun
    obtain ⟨htu, K'', hK', hQ', hsame'⟩ :=
      hok K' a t hst hQ₀ hctx (hs.acts hst) b u hrun
    refine ⟨hst.trans htu, K'', hK.trans hK', hQ',
      fun hfits hclear s' hs' => ?_⟩
    obtain ⟨t', ht', hbeside⟩ := hsame (R.fits_of_acts htu hfits)
      (hclear.mono hK') s' hs'
    obtain ⟨u', hu', hbeside'⟩ := hsame' hfits hclear t' hbeside
    exact ⟨u', by rw [hattempt, ht']; exact hu', hbeside'⟩
  | (.error e, t) =>
    obtain ⟨hst, _, hfound⟩ := hfounded hctx hs
    rw [hprun] at hrun hst hfound
    obtain ⟨htu, hclean⟩ :=
      herror e t hst (hfound e rfl) hctx (hs.acts hst)
    obtain rfl : (f (.error e) ctx t).2 = u := congrArg Prod.snd hrun
    have hunfit : ¬R.Fits (f (.error e) ctx t).2 := fun hfits =>
      hclean (R.quiet hfits).toClean
    exact ⟨hst.trans htu, K, subset_rfl, hQ b _ (hst.trans htu) hunfit,
      fun hfits => absurd hfits hunfit⟩

end Derives

end Parse

end ScriptTree
