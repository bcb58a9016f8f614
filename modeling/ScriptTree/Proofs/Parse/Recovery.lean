import ScriptTree.Proofs.Parse.Action

/-!
# Going on after an error, and what it costs

A production at a tolerant point ensures of its answer what the
production itself does, be the answer mended or not: an error node takes
up the place of all that was passed over, which is never nothing. So
nobody who asks for something at a tolerant point has to know that it is
one.

What may stand in the place of an error is up to the type of the nodes,
and the rules ask for it (`hmend`).
-/

namespace ScriptTree

variable {root ctx : Context} {s : State} {α : Type}
  {P : Expression → Prop} {R : α → Nat → Nat → Prop}

namespace Parse

open ScriptTree.Action

/-! ## At a tolerant point -/

/-- What is passed over is passed over a token at a time. -/
theorem skipTo_ensures (point : TolerantPoint) (turns depth : Nat)
    (taken : Bool) :
    Action.Ensures root (skipTo point turns depth taken) ctx s
      (fun r t => r = true → taken = true ∨ s.here < t.consumedTo) := by
  induction turns generalizing s depth taken with
  | zero => exact .pure .inl
  | succ turns ih =>
    refine .look s rfl (.look ctx rfl ?_)
    refine .ite (fun _ => .pure .inl) (fun heof => ?_)
    refine .ite (fun _ => .pure .inl) (fun _ => ?_)
    have heof : s.current.isEof = false := Bool.eq_false_iff.2 heof
    refine (advance_ensures heof).discard.bind ?_
    rintro _ t hst ⟨token, htook⟩
    refine (ih _ true).mono (fun r u htu _ _ => .inr ?_)
    exact hst.past_trans htu (.inl htook.past)

/-- **An error is mended** with all the text from where its point was
entered, if some of it has been read, or else some more. -/
theorem mend_ensures (P : Expression → Prop) (point : TolerantPoint)
    {start : Nat} (error : ParseError) (hcut : IsCut root.source start)
    (hstart : start = s.here ∨ start < s.consumedTo) :
    Ensures root (mend point start error) ctx s
      (State.Reads (As root P .error) start) := by
  refine .look ctx rfl (.look s rfl ?_)
  dsimp only
  refine .ite (fun _ => ?_) (fun _ => ?_)
  · exact (Ensures.throw error (Q := fun _ _ => False)).bind
      (fun _ _ _ h => h.elim)
  refine (Ensures.lift (skipTo_ensures point _ 0 _)).bind ?_
  intro taken t hst htaken
  refine .ite (fun _ => ?_) (fun h => ?_)
  · exact (Ensures.throw error (Q := fun _ _ => False)).bind
      (fun _ _ _ h => h.elim)
  -- Here something was read before the failure, or skipped after it.
  have hpast : start < t.consumedTo := by
    have hcons := hst.consumedTo_le
    rcases htaken (by simpa using h) with hne | hlt
    · have hne : s.here ≠ start := bne_iff_ne.1 hne
      omega
    · rcases hstart with rfl | hstart
      · exact hlt
      · omega
  refine .look (t.spanFrom start) rfl ?_
  refine (Ensures.lift (record_ensures _)).bind fun _ u htu hstill => ?_
  refine (Ensures.lift (reportError_ensures _ error)).bind
    fun _ v huv hstill' => ?_
  refine .of_good (fun hctx _ => ?_)
  have hcons : v.consumedTo = t.consumedTo :=
    hstill'.consumedTo_eq.trans hstill.consumedTo_eq
  rw [State.spanFrom_eq hpast, ← hcons]
  rw [← hcons] at hpast
  refine .lift (.look ctx rfl (.pure ⟨hpast, ?_⟩))
  refine .of_text rfl rfl ((htu.trans huv).fits hcut hpast) ?_ nofun
  rw [hctx.source_eq]

/-- A production at a tolerant point is the production, or its failure is
mended. -/
theorem tolerant_run [Mendable α] (point : TolerantPoint) (p : Parse α)
    (ctx : Context) (s : State) :
    tolerant point p ctx s = match p ctx s with
      | (.ok a, t) => (.ok a, t)
      | (.error error, t) =>
        (Mendable.ofError <$> mend point s.here error) ctx t := by
  unfold tolerant
  rw [bind_run]
  -- The production stands inside the handler, so its run is named first.
  show (Bind.bind (tryCatch _ _ : Parse _) _ : Parse α) ctx s = _
  rw [bind_run, tryCatch_run, bind_run]
  obtain ⟨error | a, t⟩ := p ctx s
  · dsimp only
    rw [map_eq_pure_bind, bind_run, bind_run]
    unfold State.here
    obtain ⟨_ | _, _⟩ := mend point s.current.span.start error ctx t <;> rfl
  · rfl

/-- A point as a handler for what fails there. -/
theorem tolerant_eq [Mendable α] (point : TolerantPoint)
    (p : Parse α) :
    tolerant point p = (do
      let start ← here
      tryCatch p fun error =>
        Mendable.ofError <$> mend point start error) := by
  funext ctx s
  have hhere : (liftM here : Parse Nat) ctx s = (.ok s.here, s) := rfl
  rw [tolerant_run, bind_run, hhere]
  exact (tryCatch_run p _ ctx s).symm

variable [Mendable α]
  (hmend : ∀ node b e, b < e → As root P .error node b e →
    R (Mendable.ofError node) b e)

include hmend

/-- **At a tolerant point** something is read as it is elsewhere. -/
theorem tolerant_ensures (point : TolerantPoint) {p : Parse α}
    (hp : Ensures root p ctx s (State.Reads R s.here)) :
    Ensures root (tolerant point p) ctx s (State.Reads R s.here) := by
  intro hctx hs
  obtain ⟨hst, hQ⟩ := hp hctx hs
  rw [tolerant_run]
  generalize p ctx s = r at hst hQ
  obtain ⟨error | a, t⟩ := r
  · -- A production that fails has read nothing, or its first token too.
    have hmended : Ensures root (Mendable.ofError <$> mend point s.here error)
        ctx t (State.Reads R s.here) := by
      refine .map ((mend_ensures P point error hs.isCut_here
        hst.here_eq_or_past).mono ?_)
      exact fun node u _ h => ⟨h.1, hmend node _ _ h.1 h.2⟩
    obtain ⟨htu, hR⟩ := hmended hctx hst.good
    exact ⟨hst.trans htu, hR⟩
  · exact ⟨hst, hQ⟩

theorem missingSeparator_ensures (point : TolerantPoint)
    (expected : String) :
    Ensures root (missingSeparator point expected : Parse α) ctx s
      (State.Reads R s.here) := by
  refine .of_good (fun _ hs => .look s.current rfl ?_)
  refine (mend_ensures P point _ hs.isCut_here (.inl rfl)).bind
    fun node t _ h => ?_
  exact .pure ⟨h.1, hmend node _ _ h.1 h.2⟩

/-! ## Lists with separators -/

variable {item : Parse α} (hitem : ∀ s, Ensures root item ctx s
  (State.Reads R s.here))

include hitem

theorem separatedFrom_ensures (point : TolerantPoint)
    (closer : Punctuator) (turns : Nat) {b : Nat} {found : List α}
    (hfound : State.ReadsRow R b found.reverse s) :
    Ensures root (separatedFrom point closer item turns found) ctx s
      (State.ReadsRow R b) := by
  -- A turn adds an item, and another one where a separator is missing.
  induction turns generalizing s found with
  | zero => exact .pure hfound
  | succ turns ih =>
    refine .look (s.current.isPunctuator closer) rfl
      (.ite (fun _ => .pure hfound) (fun _ => ?_))
    refine (tolerant_ensures hmend point (hitem s)).bind
      fun x t hst hx => ?_
    have hfound : State.ReadsRow R b (x :: found).reverse t := by
      rw [List.reverse_cons]
      exact hfound.concat hst hx
    refine (Ensures.lift (eat_ensures .comma)).bind fun _ u htu _ => ?_
    have hfound := hfound.later htu
    refine .ite (fun _ => ih hfound) (fun _ => ?_)
    refine .look (u.current.isPunctuator closer) rfl
      (.ite (fun _ => ih hfound) (fun _ => .ite (fun _ => ?_) (fun _ => ?_)))
    · refine (Ensures.lift (eat_ensures .comma).discard).bind
        fun _ v huv _ => ?_
      exact ih (hfound.later huv)
    · refine (missingSeparator_ensures hmend point _).bind
        fun skipped v huv hskipped => ?_
      refine (Ensures.lift (eat_ensures .comma).discard).bind
        fun _ w hvw _ => ih ?_
      rw [List.reverse_cons]
      exact (hfound.concat huv hskipped).later hvw

/-- **Items with commas between them** stand in a row. -/
theorem separated_ensures (point : TolerantPoint) (closer : Punctuator) :
    Ensures root (separated point closer item) ctx s
      (State.ReadsRow R s.here) :=
  .look ctx rfl (separatedFrom_ensures hmend hitem point closer _
    (.nil (Nat.le_refl _)))

omit hmend hitem

/-! ## Anywhere else -/

/-- A parse that has ended passes over nothing. -/
theorem skipStatement_of_aborted (turns depth : Nat) (taken : Bool)
    (h : s.aborted = true) :
    skipStatement turns depth taken ctx s = ((), s) := by
  cases turns with
  | zero => rfl
  | succ turns =>
    show (ite _ _ _ : Action Unit) ctx s = _
    rw [if_pos (by rw [h]; rfl)]
    rfl

/-- **The rest of a statement** is passed over a token at a time, and at
least one token is, unless the text or the parse has ended. -/
theorem skipStatement_ensures (turns depth : Nat) (taken : Bool) :
    Action.Ensures root (skipStatement turns depth taken) ctx s
      (fun _ t => 0 < turns → taken = false → s.current.isEof = false →
        s.aborted = false → s.here < t.consumedTo) := by
  induction turns generalizing s depth taken with
  | zero => exact .pure (fun h => absurd h (Nat.lt_irrefl 0))
  | succ turns ih =>
    refine .look s rfl (.look ctx rfl ?_)
    refine .ite (fun h => .pure ?_) (fun h => .ite (fun h => .pure ?_) ?_)
    · intro _ _ heof haborted
      simp [heof, haborted] at h
    · intro _ htaken
      simp [htaken] at h
    intro _
    have heof : s.current.isEof = false := by
      simp only [Bool.or_eq_true, not_or, Bool.not_eq_true] at h
      exact h.2
    refine (advance_ensures heof).discard.bind ?_
    rintro _ t hst ⟨token, htook⟩
    refine .ite (fun _ => .pure (fun _ _ _ _ => htook.past)) (fun _ => ?_)
    refine (ih _ true).mono (fun _ u htu _ _ _ _ _ => ?_)
    exact hst.past_trans htu (.inl htook.past)

/-- **A statement is given up** with all the text from where it began.
Nothing is left of it only if nothing can be taken of it, or if the parse
has ended. -/
theorem abandon_ensures (P : Expression → Prop) {start : Nat}
    (error : ParseError) (hcut : IsCut root.source start)
    (hstart : start = s.here ∨ start < s.consumedTo) :
    Action.Ensures root (abandon start error) ctx s (fun r t =>
      (∀ x, r = some x → State.Reads (As root P .statement) start x t)
        ∧ (r = none → 0 < root.turns →
          t.aborted = true ∨ start = s.here ∧ s.current.isEof = true)) := by
  refine (reportError_ensures _ error).bind fun _ t hst hstill => ?_
  refine (record_ensures _).bind fun _ u htu hstill' => ?_
  refine .look ctx rfl (.look u.here rfl ?_)
  refine (skipStatement_ensures _ 0 _).with_run.bind
    fun _ v huv ⟨hskipped, hrun⟩ => ?_
  refine .look (v.spanFrom start) rfl (.of_good (fun hctx hv => ?_))
  have hhere : u.here = s.here := hstill'.here_eq.trans hstill.here_eq
  have hcons : u.consumedTo = s.consumedTo :=
    hstill'.consumedTo_eq.trans hstill.consumedTo_eq
  refine .ite (fun hempty => .pure ⟨fun _ h => (nomatch h), ?_⟩)
    (fun hempty => .look _ rfl (.pure ⟨?_, fun h => (nomatch h)⟩))
  · intro _ hturns
    have hempty : max v.consumedTo start ≤ start := of_decide_eq_true hempty
    have hle := huv.consumedTo_le
    have hstart : start = s.here := by omega
    cases haborted : u.aborted with
    | true =>
      rw [skipStatement_of_aborted _ _ _ haborted] at hrun
      cases hrun
      exact .inl haborted
    | false =>
      -- A token that was there would have been taken.
      refine .inr ⟨hstart, Bool.of_not_eq_false (fun heof => ?_)⟩
      have heof : u.current.isEof = false := by
        rw [hstill'.current_eq, hstill.current_eq, heof]
      have hpast := hskipped (by rwa [hctx.turns_eq])
        (decide_eq_false (by omega)) heof haborted
      omega
  · intro x hx
    obtain rfl := Option.some.inj hx
    have hempty : ¬max v.consumedTo start ≤ start :=
      of_decide_eq_false (Bool.eq_false_iff.2 hempty)
    have hpast : start < v.consumedTo := by omega
    rw [State.spanFrom_eq hpast]
    refine huv.node hcut hpast rfl rfl ⟨?_, ?_⟩ trivial
    · exact Nat.le_trans (Nat.le_of_lt hpast) hv.consumedTo_le
    · refine .single (.of_text rfl rfl (huv.fits hcut hpast) ?_ nofun)
        (Nat.le_refl _) hpast (Nat.le_refl _)
      rw [hctx.source_eq]

end Parse

end ScriptTree
