import ScriptTree.Proofs.Abreast.Action
import ScriptTree.Proofs.Parse.Recovery

/-!
# Going on after an error, abreast

What is done about an error depends on the options, and this is the one
place where it does. If all parses tolerate errors they mend one alike.
In a strict family they may not; but then the error puts a parse apart in
either case, be it taken down on the spot or further up (`mend_leaves`,
`abandon_apart`). So a production at a tolerant point goes abreast if the
production itself does, and so does a statement that may be given up.
-/

namespace ScriptTree.Parse

variable {ι : Type} {F : Family ι} {K : Prop} {α β : Type}

/-! ## Actions -/

namespace Abreast

theorem lift_bind {x : Action α} {f : α → Action β}
    (hx : Abreast F K fun _ => (liftM x : Parse α))
    (hf : ∀ a, Abreast F K fun _ => (liftM (f a) : Parse β)) :
    Abreast F K fun _ => (liftM (x >>= f) : Parse β) := hx.bind hf

theorem lift_discard {x : Action α}
    (hx : Abreast F K fun _ => (liftM x : Parse α)) :
    Abreast F K fun _ => (liftM (Functor.discard x) : Parse PUnit) :=
  hx.lift_bind (f := fun _ => Pure.pure PUnit.unit) fun _ => .pure

theorem lift_ite {c : Prop} [Decidable c] {x y : Action α}
    (hx : Abreast F K fun _ => (liftM x : Parse α))
    (hy : Abreast F K fun _ => (liftM y : Parse α)) :
    Abreast F K fun _ => (liftM (if c then x else y) : Parse α) := by
  split
  · exact hx
  · exact hy

theorem lift_view {f : State → Action β} (blind : ∀ s, f s.sight = f s)
    (hf : ∀ s, Abreast F K fun _ => (liftM (f s) : Parse β)) :
    Abreast F K fun _ => (liftM (get >>= f) : Parse β) :=
  .view (f := fun _ s => liftM (f s))
    (fun _ s => congrArg (liftM ·) (blind s)) hf

theorem lift_consult {f : Context → Action β}
    (blind : ∀ c options, f (c.withOptions options) = f c)
    (hf : ∀ c, Abreast F K fun _ => (liftM (f c) : Parse β)) :
    Abreast F K fun _ => (liftM (read >>= f) : Parse β) :=
  .consult (f := fun _ c => liftM (f c))
    (fun _ c options => congrArg (liftM ·) (blind c options)) hf

theorem lift_look {x : Action α} {f : α → Action β}
    (still : ∀ ctx s, (x ctx s).2 = s)
    (blind : ∀ ctx options s,
      (x (ctx.withOptions options) s.sight).1 = (x ctx s).1)
    (hf : ∀ a, Abreast F K fun _ => (liftM (f a) : Parse β)) :
    Abreast F K fun _ => (liftM (x >>= f) : Parse β) :=
  (look still blind).lift_bind hf

end Abreast

open Abreast

/-! ## At a tolerant point -/

theorem skipTo_abreast (point : TolerantPoint) (turns depth : Nat)
    (taken : Bool) : Abreast F K fun _ =>
      (liftM (skipTo point turns depth taken) : Parse Bool) := by
  induction turns generalizing depth taken with
  | zero => exact .pure
  | succ turns ih =>
    refine lift_view (fun _ => rfl) fun s =>
      lift_consult (fun _ _ => rfl) fun c => ?_
    refine lift_ite .pure (lift_ite .pure ?_)
    exact advance.lift_discard.lift_bind fun _ => ih _ _

/-- **Parses that tolerate errors mend them alike.** -/
theorem mend_alike (point : TolerantPoint) (start : Nat)
    (error : ParseError) :
    Abreast F False fun _ => mend point start error := by
  refine .askOptions fun c => .view (fun _ _ => rfl) fun s => ?_
  dsimp only
  refine .choose (fun hstrict => ?_) (.throwBind False.elim) ?_
  · -- The options show all parses the same here.
    have htolerant (i : ι) :
        (c.withOptions (F.options i)).options.tolerant = true :=
      F.tolerant_eq hstrict i
    simp only [htolerant]
    by_cases hc : (!true || s.aborted || error.isTooDeep) = true
    · exact .inl fun _ => hc
    · exact .inr fun _ => hc
  refine (skipTo_abreast point _ 0 _).bind fun taken => ?_
  refine .ite (.throwBind False.elim) ?_
  refine (look (fun _ _ => rfl) fun _ _ _ => rfl).bind fun span => ?_
  refine (Abreast.record _).bind fun _ => ?_
  refine (Abreast.reportError .recoverable error).bind fun _ => ?_
  exact look (fun _ _ => rfl) fun _ _ _ => rfl

section Leaves

variable {i : ι} {ctx : Context} {s : State}

theorem leaves_read {f : Context → Parse β} (h : F.Leaves i (f ctx ctx s)) :
    F.Leaves i ((read >>= f) ctx s) := h

theorem leaves_get {f : State → Parse β} (h : F.Leaves i (f s ctx s)) :
    F.Leaves i ((get >>= f) ctx s) := h

theorem leaves_lift {x : Action α} {f : α → Parse β}
    (h : F.Leaves i (f (x ctx s).1 ctx (x ctx s).2)) :
    F.Leaves i ((liftM x >>= f) ctx s) := h

end Leaves

/-- **A parse that has left the others stays away**, whether its error is
mended or not: it is taken down here, or given on. -/
theorem mend_leaves (point : TolerantPoint) (start : Nat)
    {error : ParseError} {i : ι} {c : Context} {s : State}
    (h : F.Leaves (α := α) i (.error error, s)) :
    F.Leaves i
      (mend point start error (c.withOptions (F.options i)) s) := by
  rcases h with h | ⟨_, herror, hparts, hgoing⟩
  · exact .of_apart h ((mend_alike point start error).grows i c s)
  obtain rfl := Except.error.inj herror
  refine leaves_read (leaves_get ?_)
  show F.Leaves i ((ite _ _ _ : Parse _) _ s)
  split
  · exact .inr ⟨_, rfl, hparts, hgoing⟩
  next hc =>
  have htolerant : (F.options i).tolerant = true := by
    simp only [Bool.or_eq_true, not_or, Bool.not_eq_true,
      Bool.not_eq_false'] at hc
    exact hc.1.1
  refine leaves_lift ?_
  have hskip := (skipTo_abreast (F := F) (K := True) point c.turns 0
    (s.current.span.start != start)).grows i c s
  have hgoing := (hskip.aborted_eq htolerant).trans hgoing
  show F.Leaves i ((ite _ _ _ : Parse _) _ _)
  split
  · exact .inr ⟨_, rfl, hparts, hgoing⟩
  · exact .inl (F.apart_reportError hparts .recoverable hgoing)

/-- **An error that has not been taken down** is mended alike, unless it
puts the parses apart. -/
theorem mend_abreast (point : TolerantPoint) (start : Nat)
    {error : ParseError} (fresh : K → error.isLexical = false) :
    Abreast F K fun _ => mend point start error where
  grows := (mend_alike point start error).grows
  ends h c u s hs := by
    by_cases hstrict : F.strict
    · have hparts (i : ι) : F.Parts i error :=
        F.parts_of_strict hstrict i (fresh (h hstrict))
      exact .apart fun i => mend_leaves (α := ErrorNode) point start
        (.inr ⟨error, rfl, hparts i, hs.aborted_eq i⟩)
    · exact (mend_alike point start error).ends hstrict c hs

/-- **A production at a tolerant point** goes abreast if it does
elsewhere. -/
theorem tolerant_abreast [Mendable α] {p : ι → Parse α}
    (point : TolerantPoint) (hp : Abreast F K p) :
    Abreast F K fun i => tolerant point (p i) := by
  have hmended (start : Nat) (error : ParseError) :
      Abreast F (error.isLexical = false)
        fun _ => Mendable.ofError (α := α) <$> mend point start error := by
    simp only [map_eq_pure_bind]
    exact (mend_abreast point start id).bind fun _ => .pure
  refine ⟨fun i c s => ?_, fun h c u s hs => ?_⟩
  · have h := hp.grows i c s
    rw [tolerant_run]
    generalize p i _ s = r at h
    obtain ⟨error | a, t⟩ := r
    · exact h.trans ((hmended _ error).grows i c t)
    · exact h
  have hhere (i : ι) : (s i).here = u.here :=
    hs.eq (f := State.here) (fun _ => rfl) i
  simp only [tolerant_run, hhere]
  cases hp.ends h c hs with
  | answer run ht =>
    simp only [run]
    exact .answer (fun _ => rfl) ht
  | failure run ht shows =>
    simp only [run]
    exact (hmended _ _).ends shows c ht
  | apart leaves =>
    refine .apart fun i => ?_
    have hleaves := leaves i
    generalize p i _ (s i) = r at hleaves
    obtain ⟨error | a, t⟩ := r
    · dsimp only
      rw [map_eq_pure_bind]
      exact leaves_bind (mend_leaves point _ hleaves) fun _ t => .refl _ t
    · exact hleaves

/-! ## Anywhere else -/

theorem skipStatement_abreast (turns depth : Nat) (taken : Bool) :
    Abreast F K fun _ =>
      (liftM (skipStatement turns depth taken) : Parse Unit) := by
  induction turns generalizing depth taken with
  | zero => exact .pure
  | succ turns ih =>
    refine lift_view (fun _ => rfl) fun s =>
      lift_consult (fun _ _ => rfl) fun c => ?_
    refine lift_ite .pure (lift_ite .pure ?_)
    refine advance.lift_discard.lift_bind fun _ => ?_
    exact lift_ite .pure (ih _ _)

/-- What is made of a statement whose error has been taken down. -/
theorem leftover_abreast (start : Nat) (error : ParseError) :
    Abreast F K fun _ => (liftM (do
      Action.record (.abandoned start error)
      let ctx ← read
      skipStatement ctx.turns 0 (start < (← Action.here))
      let span ← Action.spanFrom start
      if span.isEmpty then
        return none
      else
        return some (Statement.error (← Action.errorNode span)) :
      Action (Option Statement)) : Parse (Option Statement)) := by
  refine lift_bind (.record _) fun _ => lift_consult (fun _ _ => rfl)
    fun c => lift_look (fun _ _ => rfl) (fun _ _ _ => rfl) fun _ => ?_
  refine lift_bind (skipStatement_abreast _ 0 _) fun _ => ?_
  refine lift_look (fun _ _ => rfl) (fun _ _ _ => rfl) fun span => ?_
  refine lift_ite .pure ?_
  exact lift_look (fun _ _ => rfl) (fun _ _ _ => rfl) fun _ => .pure

theorem abandon_abreast (start : Nat) (error : ParseError) :
    Abreast F K fun _ =>
      (liftM (abandon start error) : Parse (Option Statement)) :=
  lift_bind (.reportError .structural error) fun _ =>
    leftover_abreast start error

/-- **A parse that has left the others is apart** once its statement is
given up. -/
theorem abandon_apart (start : Nat) {error : ParseError} {i : ι}
    {c : Context} {s : State} (h : F.Leaves (α := α) i (.error error, s)) :
    F.Apart i
      (abandon start error (c.withOptions (F.options i)) s).2.problems := by
  rcases h with h | ⟨_, herror, hparts, hgoing⟩
  · exact F.apart_mono
      ((abandon_abreast (K := True) start error).grows i c s).isPrefix h
  obtain rfl := Except.error.inj herror
  exact F.apart_mono
    ((leftover_abreast (K := True) start error).grows i c _).isPrefix
    (F.apart_reportError hparts .structural hgoing)

/-- **A statement that may be given up.** In a strict family a failure puts
the parses apart as soon as it is taken down. -/
theorem orAbandon_abreast (start : Nat) {p : ι → Parse Statement}
    (hp : Abreast F K p) : Abreast F K fun i => orAbandon start (p i) where
  grows i c s := by
    have h := hp.grows i c s
    rw [orAbandon_run]
    generalize p i _ s = r at h
    obtain ⟨error | a, t⟩ := r
    · exact h.trans
        ((abandon_abreast (K := True) start error).grows i c t)
    · exact h
  ends h c u s hs := by
    simp only [orAbandon_run]
    cases hp.ends h c hs with
    | answer run ht =>
      simp only [run]
      exact .answer (fun _ => rfl) ht
    | @failure error v t run ht shows =>
      simp only [run]
      by_cases hstrict : F.strict
      · refine .apart fun i => .inl (abandon_apart (α := Statement) start ?_)
        exact .inr ⟨_, rfl, F.parts_of_strict hstrict i (shows hstrict),
          ht.aborted_eq i⟩
      · exact (abandon_abreast (K := True) start error).ends
          (fun _ => trivial) c ht
    | apart leaves =>
      refine .apart fun i => ?_
      have hleaves := leaves i
      generalize p i _ (s i) = r at hleaves
      obtain ⟨error | a, t⟩ := r
      · exact .inl (abandon_apart start hleaves)
      · rcases hleaves with hapart | ⟨_, herror, _⟩
        · exact .inl hapart
        · exact nomatch herror

end ScriptTree.Parse
