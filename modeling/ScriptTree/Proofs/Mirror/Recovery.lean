import ScriptTree.Proofs.Mirror.Action

/-!
# Where something goes wrong

Nothing goes wrong inside the part of a text that a mirror is about. So
the productions that go on after an error need not be followed into what
they do then: they do what they would do without one. That an error shows
in the problems found is known from a parse that tolerates errors and one
that does not (`toleranceFamily`), and need not be proved again.

What remains of tolerant points is their production (`run_of_tolerant`),
and what remains of a report is that it was not made.
-/

namespace ScriptTree

variable {M : Mirror} {E : State → Prop} {H H' B : Prop} {ctx : Context}
  {s s' t t' : State} {S : State → State → Prop} {α β σ : Type}

/-! ## Errors show -/

namespace Mirror

theorem Start.clear (h : M.Start s s') : s.current.error = none :=
  h.elim (·.clear) (·.clear)

theorem Start.good (h : M.Start s s') : s.Good M.root :=
  h.elim (·.good) (·.good)

/-- A decision is taken down. -/
theorem Fresh.record (h : M.Fresh s s') (event event' : Event) :
    M.Fresh { s with events := s.events.push event }
      { s' with events := s'.events.push event' } where
  good := h.good.congr rfl rfl rfl rfl (fun _ => rfl)
  good' := h.good'.congr rfl rfl rfl rfl (fun _ => rfl)
  current_eq := h.current_eq
  clear := h.clear
  level := h.level
  consumedTo_eq := h.consumedTo_eq
  problems_eq := h.problems_eq

variable [M.Lawful]

/-- The options of the parses are those of the one that tolerates
errors. -/
theorem withOptions_eq (hctx : M.root.Within ctx) :
    ctx.withOptions ((toleranceFamily M.options).options true) = ctx := by
  have hoptions : (toleranceFamily M.options).options true
      = ctx.options := by
    rw [hctx.options_eq]
    show { M.options with tolerant := true } = M.options
    rw [← Lawful.tolerant (M := M)]
  rw [hoptions]
  rfl

/-- A parse that stands beside another one goes on. -/
theorem Start.aborted_eq (h : M.Start s s') : s.aborted = false :=
  h.good.aborted_eq Lawful.tolerant

/-- **A parse in which nothing has gone wrong** is abreast of the one that
does not tolerate errors. -/
theorem Start.together (h : M.Start s s') :
    (toleranceFamily M.options).Together s (fun _ => s) :=
  ⟨fun _ => rfl, h.aborted_eq, fun _ => h.clear, rfl, rfl⟩

/-- A parse that may be apart from the other has left the part. -/
theorem not_fits_of_apart
    (h : (toleranceFamily M.options).Apart true t.problems) :
    ¬M.Fits t := by
  intro hfits
  rw [Lawful.problems_of_fits hfits] at h
  rcases h with ⟨d, hd, _⟩ | hfull
  · exact absurd hd List.not_mem_nil
  · exact absurd Lawful.room (Nat.not_lt.2 hfull)

/-- So has one with a problem. -/
theorem not_fits_of_report (kind : DiagnosticKind) (severity : Severity)
    (message : String) (span : Span) (h : s.aborted = false)
    (hctx : M.root.Within ctx) :
    ¬M.Fits (s.report ctx kind severity message span) := by
  intro hfits
  have hproblems := Lawful.problems_of_fits hfits
  rw [State.report_problems _ _ _ _ _ _ h, hctx.options_eq,
    Options.added] at hproblems
  split at hproblems
  · rename_i hfull
    rw [hproblems] at hfull
    exact absurd Lawful.room (Nat.not_lt.2 hfull)
  · exact List.append_ne_nil_of_right_ne_nil _ (List.cons_ne_nil _ _)
      hproblems

end Mirror

namespace Parse

open ScriptTree.Action Mirror

section Errors

variable [M.Lawful] {p : Parse α}
  (habreast : Abreast (toleranceFamily M.options) True fun _ => p)

include habreast

/-- **A production that fails has left the part**, or is about to. -/
theorem leaves_of_error (hctx : M.root.Within ctx) (h : M.Start s s')
    {e : ParseError} (hrun : p ctx s = (.error e, t)) :
    (toleranceFamily M.options).Leaves true
      ((.error e, t) : Except ParseError α × State) := by
  have hends := habreast.ends (fun _ => trivial) ctx h.together
  have hself := withOptions_eq hctx
  cases hends with
  | answer run ht =>
    have hrun' := run true
    simp only [hself, hrun] at hrun'
    exact nomatch congrArg Prod.fst hrun'
  | @failure e' u t' run ht shows =>
    have hrun' := run true
    simp only [hself, hrun] at hrun'
    refine .inr ⟨e, rfl, ?_, ?_⟩
    · rw [Except.error.inj (congrArg Prod.fst hrun')]
      exact shows trivial
    · rw [show t = t' true from congrArg Prod.snd hrun']
      exact ht.aborted_eq true
  | apart leaves =>
    have hleaves := leaves true
    simp only [hself, hrun] at hleaves
    exact hleaves

omit habreast in
/-- **What is mended shows**: it is not inside the part. -/
theorem not_fits_of_mend {point : TolerantPoint} {start : Nat}
    {error : ParseError} {n : ErrorNode} (hctx : M.root.Within ctx)
    (h : (toleranceFamily M.options).Leaves true
      ((.error error, s) : Except ParseError α × State))
    (hrun : mend point start error ctx s = (.ok n, t)) : ¬M.Fits t := by
  have hleaves := mend_leaves (c := ctx) point start h
  rw [withOptions_eq hctx, hrun] at hleaves
  exact hleaves.elim not_fits_of_apart (fun ⟨_, he, _⟩ => nomatch he)

/-- **Inside the part nothing is mended**: what is read at a tolerant point
is read there without the point. -/
theorem run_of_tolerant [Mendable α] {point : TolerantPoint}
    (hctx : M.root.Within ctx) (h : M.Start s s') {a : α}
    (hrun : tolerant point p ctx s = (.ok a, t)) (ht : M.Fits t) :
    p ctx s = (.ok a, t) := by
  rw [tolerant_run] at hrun
  match hp : p ctx s with
  | (.ok b, u) => rwa [hp] at hrun
  | (.error e, u) =>
    rw [hp] at hrun
    dsimp only at hrun
    rw [map_eq_pure_bind] at hrun
    obtain ⟨n, v, hmend, hpure⟩ := of_bind_run hrun
    obtain rfl : v = t := congrArg Prod.snd hpure
    exact absurd ht (not_fits_of_mend hctx
      (leaves_of_error habreast hctx h hp) hmend)

end Errors

/-- **At a tolerant point** steps are taken only. -/
theorem tolerant_runs {root : Context} [Mendable α]
    (point : TolerantPoint) {p : Parse α}
    (hp : Ensures root p ctx s (fun _ _ => True)) :
    Ensures root (tolerant point p) ctx s (fun _ _ => True) := by
  intro hctx hs
  obtain ⟨hst, _⟩ := hp hctx hs
  rw [tolerant_run]
  generalize p ctx s = r at hst
  obtain ⟨error | a, t⟩ := r
  · have hmended : Ensures root (Mendable.ofError (α := α)
        <$> mend point s.here error) ctx t (fun _ _ => True) :=
      .map ((mend_ensures (fun _ => True) point error hs.isCut_here
        hst.here_eq_or_past).mono (fun _ _ _ _ => trivial))
    obtain ⟨htu, _⟩ := hmended hctx hst.good
    exact ⟨hst.trans htu, fun _ _ => trivial⟩
  · exact ⟨hst, fun _ _ => trivial⟩

/-! ## At a tolerant point -/

section Points

variable [M.Lawful] [hE : M.Backward E] [HasNodes α] [Mendable α]
  {μ : α → α} {p : Parse α}

/-- **A production at a tolerant point** does what it does elsewhere. -/
theorem tolerant_mirrors (point : TolerantPoint)
    (habreast : Abreast (toleranceFamily M.options) True fun _ => p)
    (hstart : H → M.Start s s')
    (hp : Mirrors M E H False μ p p ctx s s' S) :
    Mirrors M E H False μ (tolerant point p) (tolerant point p) ctx s s'
      S where
  runs := tolerant_runs point hp.runs
  marks h := h.elim
  same hH hctx hs a t hrun ht hunmarked := by
    have hrun := run_of_tolerant habreast hctx (hstart hH) hrun (hE.fits ht)
    obtain ⟨t', hq, hS⟩ := hp.same hH hctx hs hrun ht hunmarked
    exact ⟨t', by rw [tolerant_run, hq], hS⟩

/-- **What comes behind a tolerant point** has an answer of the production
itself to go on with. -/
theorem Mirrors.bindTolerant [HasNodes β] {ν : β → β}
    {point : TolerantPoint} {V : α → Prop} {f f' : α → Parse β}
    {S' : State → State → Prop}
    (habreast : Abreast (toleranceFamily M.options) True fun _ => p)
    (hstart : H → M.Start s s') (hp : Mirrors M E H False μ p p ctx s s' S)
    (hV : ∀ a t, p ctx s = (.ok a, t) → V a)
    (hf : ∀ a t t', Mirrors M E ((H ∧ S t t') ∧ V a) (B ∨ M.Marked a) ν
      (f a) (f' (μ a)) ctx t t' S') :
    Mirrors M E H B ν (tolerant point p >>= f) (tolerant point p >>= f')
      ctx s s' S' :=
  ((tolerant_mirrors point habreast hstart hp).bindKnown
    (fun hH hctx a t hrun ht => hV a t
      (run_of_tolerant habreast hctx (hstart hH) hrun (hE.fits ht)))
    hf (fun a t => (hf a t t).runs.mono
      (fun _ _ _ _ htu hu => hE.back htu hu))).mono id .inl (fun _ => id)
    (fun _ _ => id)

/-- **A separator is not missing** inside the part. -/
theorem missingSeparator_mirrors (point : TolerantPoint)
    (expected : String) (hstart : H → M.Start s s') :
    Mirrors M E H False μ (missingSeparator point expected)
      (missingSeparator point expected) ctx s s' S where
  runs := (missingSeparator_ensures (P := fun _ => True)
    (R := fun _ _ _ => True) (fun _ _ _ _ _ => trivial) point expected).mono
    (fun _ _ _ _ => trivial)
  marks h := h.elim
  same hH hctx hs a t hrun ht _ := by
    have hfresh := ParseError.isLexical_ofToken expected (hstart hH).clear
    obtain ⟨token, u, hcurrent, hrun⟩ := of_bind_run hrun
    obtain ⟨rfl, rfl⟩ : s.current = token ∧ s = u := by
      cases hcurrent
      exact ⟨rfl, rfl⟩
    obtain ⟨n, v, hmend, hpure⟩ := of_bind_run hrun
    obtain rfl : v = t := congrArg Prod.snd hpure
    exact absurd (hE.fits ht) (not_fits_of_mend (α := ErrorNode) hctx
      (.inr ⟨_, rfl, hfresh, (hstart hH).aborted_eq⟩) hmend)

end Points

/-- A statement that is given up has left the part. -/
theorem not_fits_of_abandon [M.Lawful] (start : Nat) {error : ParseError}
    (hctx : M.root.Within ctx)
    (h : (toleranceFamily M.options).Leaves true
      ((.error error, s) : Except ParseError α × State)) :
    ¬M.Fits (abandon start error ctx s).2 := by
  have hapart := abandon_apart (c := ctx) start h
  rw [withOptions_eq hctx] at hapart
  exact not_fits_of_apart hapart

/-! ## Decisions -/

/-- **A decision is taken down**, in either parse its own. -/
theorem record_mirrors (event event' : Event) (h : H → M.Fresh s s') :
    Mirrors M E H False id (liftM (record event)) (liftM (record event')) ctx
      s s' M.Fresh where
  runs := .lift ((record_ensures event).mono (fun _ _ _ _ => trivial))
  marks h := h.elim
  same hH _ _ a t hrun _ _ := by
    cases hrun
    exact ⟨_, rfl, (h hH).record event event'⟩

end Parse

end ScriptTree
