import ScriptTree.Proofs.Account.Action
import ScriptTree.Proofs.Derive.Logic

/-!
# What is derived of one token

The actions and productions that read one token. A token is the same in both
texts, its line and column aside, and no production lets these matter.
-/

namespace ScriptTree

variable {root ctx ctx' : Context} {R : Replay root} {K : Set Mark}
  {r s : State} {F : List Node} {α β : Type}

namespace Parse

open ScriptTree.Action State

variable {Q : Set Mark → β → State → Prop}

/-! ## Reading a token -/

namespace Derives

/-- **The current token is read**, and it is known which one it is. -/
theorem advance {f : Token → Parse β} (heof : s.current.isEof = false)
    (hpos : ∀ position,
      f { s.current with position := position } = f s.current)
    (hf : Derives R K (f s.current) ctx (s.bump root) Q) :
    Derives R K (liftM Action.advance >>= f) ctx s Q := by
  intro hctx hs b u hrun
  have hbump : s.bump ctx = s.bump root := bump_congr hctx s
  have hact : Acts root s (s.bump root) := .single (.bump heof)
  have hrun : f s.current ctx (s.bump ctx) = (.ok b, u) := hrun
  rw [hbump] at hrun
  obtain ⟨htu, K', hK, hQ, hsame⟩ := hf hctx (hs.acts hact) b u hrun
  refine ⟨hact.trans htu, K', hK, hQ, fun hfits hclear s' hs' => ?_⟩
  have hbeside := R.bump hs' heof (R.fits_of_acts htu hfits)
  obtain ⟨u', hu', hend⟩ := hsame hfits hclear _ hbeside
  refine ⟨u', ?_, hend⟩
  show f s'.current (R.reflect ctx) (s'.bump (R.reflect ctx)) = _
  rw [R.current hs', hpos, bump_congr (R.within_image hctx) s']
  exact hu'

/-- **A construct begins** with the current token. -/
theorem opening {f : Token → Parse β} (heof : s.current.isEof = false)
    (hpos : ∀ position,
      f { s.current with position := position } = f s.current)
    (hf : R.Yields ctx ∅ s [] (s.bump root) →
      Derives R K (f s.current) ctx (s.bump root) Q) :
    Derives R K (liftM Action.advance >>= f) ctx s Q :=
  advance heof hpos (hf (.token heof))

/-- A token is read of which nothing is kept. -/
theorem pass {f : PUnit → Parse β} (hF : R.Yields ctx' K r F s)
    (heof : s.current.isEof = false)
    (hf : R.Yields ctx' K r F (s.bump root) →
      Derives R K (f ⟨⟩) ctx (s.bump root) Q) :
    Derives R K (liftM (Functor.discard Action.advance) >>= f) ctx s Q :=
  congr (q := liftM Action.advance >>= fun _ => f ⟨⟩) rfl
    (fun _ _ _ => rfl)
    (advance heof (fun _ => rfl) (hf (hF.bump heof)))

end Derives

/-- **A production that reads the current token**, if it is one of those it
asks for. -/
structure Takes (p : Parse Token) (c : Token → Bool) : Prop where
  /-- It asks for the kind and the text. -/
  asks : Token.Asks c
  /-- It reads the token. -/
  run (ctx : Context) (s : State) (h : c s.current = true) :
    p ctx s = (liftM Action.advance : Parse Token) ctx s
  /-- It fails if it is not there. -/
  fails (ctx : Context) (s : State) (h : c s.current = false) (a : Token)
    (t : State) : p ctx s ≠ (.ok a, t)

/-- A token that is looked at before it is read. -/
theorem takes_of_test {x : Parse Bool} {c : Token → Bool}
    {expected : String} (hc : Token.Asks c)
    (hx : ∀ ctx s, x ctx s = (.ok (c s.current), s)) :
    Takes (x >>= fun b => if b = true then liftM Action.advance
      else unexpected expected) c where
  asks := hc
  run ctx s h := by
    rw [bind_run, hx]
    dsimp only
    rw [if_pos h]
  fails ctx s h a t hrun := by
    rw [bind_run, hx] at hrun
    dsimp only at hrun
    rw [if_neg (Bool.eq_false_iff.1 h)] at hrun
    exact nomatch hrun

theorem expectPunctuator_takes (p : Punctuator) :
    Takes (expectPunctuator p) (·.isPunctuator p) :=
  takes_of_test (Token.asks_punctuator p) (fun _ _ => rfl)

theorem expectKeyword_takes (k : Keyword) :
    Takes (expectKeyword k) (·.isKeyword k) :=
  takes_of_test (Token.asks_keyword k) (fun _ _ => rfl)

theorem expectWord_takes (word : String) :
    Takes (expectWord word) (·.isWord word) :=
  takes_of_test (Token.asks_word word) (fun _ _ => rfl)

namespace Derives

variable {p : Parse Token} {c : Token → Bool}

/-- **A token that is asked for is read.** -/
theorem take {f : Token → Parse β} (hp : Takes p c)
    (hpos : ∀ position,
      f { s.current with position := position } = f s.current)
    (hf : s.current.isEof = false →
      Derives R K (f s.current) ctx (s.bump root) Q) :
    Derives R K (p >>= f) ctx s Q := by
  cases hc : c s.current with
  | false =>
    refine .never (fun b u hrun => ?_)
    rw [bind_run] at hrun
    match hprun : p ctx s with
    | (.ok a, t) => exact hp.fails ctx s hc a t hprun
    | (.error e, t) => rw [hprun] at hrun; cases hrun
  | true =>
    have heof : s.current.isEof = false := by
      refine Bool.eq_false_iff.2 (fun heof => ?_)
      exact nomatch hc.symm.trans (hp.asks.eof heof)
    refine .congr ?_ (fun _ s' hs' => ?_) (advance heof hpos (hf heof))
    · rw [bind_run, bind_run, hp.run ctx s hc]
    · have hagrees := R.current hs'
      have hc' : c s'.current = true :=
        (hp.asks.congr hagrees.kind_eq hagrees.text_eq).trans hc
      rw [bind_run, bind_run, hp.run _ s' hc']

/-- A token that is asked for is read, and nothing of it is kept. -/
theorem takeOff {f : PUnit → Parse β} (hp : Takes p c)
    (hf : s.current.isEof = false →
      Derives R K (f ⟨⟩) ctx (s.bump root) Q) :
    Derives R K (Functor.discard p >>= f) ctx s Q := by
  have hrun : Functor.discard p >>= f = p >>= fun _ => f ⟨⟩ := by
    rw [show (Functor.discard p : Parse PUnit) = p >>= fun _ => Pure.pure ⟨⟩
      from map_eq_pure_bind (fun _ => PUnit.unit) p, bind_assoc]
    rfl
  rw [hrun]
  exact take hp (fun _ => rfl) hf

/-- It is read behind what was read before. -/
theorem skip {f : PUnit → Parse β} (hp : Takes p c)
    (hF : R.Yields ctx' K r F s)
    (hf : R.Yields ctx' K r F (s.bump root) →
      Derives R K (f ⟨⟩) ctx (s.bump root) Q) :
    Derives R K (Functor.discard p >>= f) ctx s Q :=
  takeOff hp (fun heof => hf (hF.bump heof))

end Derives

/-! ## Marks that may be there -/

theorem eat_derives {p : Punctuator} {Q : Set Mark → Bool → State → Prop}
    (hyes : s.current.isPunctuator p = true → Q K true (s.bump root))
    (hno : s.current.isPunctuator p = false → Q K false s) :
    Derives R K (liftM (eat p)) ctx s Q := by
  refine .congr (q := do
    if ← atPunctuator p then
      let _ ← advance
      return true
    else return false) ?_ (fun _ s' _ => ?_) ?_
  · show (Except.ok (eat p ctx s).1, (eat p ctx s).2) = _
    rw [bind_run, eat_run]
    show _ = (ite _ _ _ : Parse Bool) ctx s
    split <;> rfl
  · show (Except.ok (eat p _ s').1, (eat p _ s').2) = _
    rw [bind_run, eat_run]
    show _ = (ite _ _ _ : Parse Bool) _ s'
    split <;> rfl
  refine .ask (·.isPunctuator p) (fun _ _ => rfl) (fun _ => rfl)
    (.ite (fun h => ?_) (fun h => .pure (hno (Bool.eq_false_iff.2 h))))
  exact .advance (isEof_of_isPunctuator h) (fun _ => rfl) (.pure (hyes h))

/-- **A mark is read if it is there**, behind what was read before. -/
theorem eat_yields (p : Punctuator) (hF : R.Yields ctx' K r F s) :
    Derives R K (liftM (eat p)) ctx s
      (fun K' _ t => R.Yields ctx' K' r F t) :=
  eat_derives (fun h => hF.bump (isEof_of_isPunctuator h)) (fun _ => hF)

theorem discard_eat_yields (p : Punctuator) (hF : R.Yields ctx' K r F s) :
    Derives R K (liftM (Functor.discard (eat p))) ctx s
      (fun K' _ t => R.Yields ctx' K' r F t) := by
  rw [lift_discard]
  exact (eat_yields p hF).discard

/-! ## Decisions and failures -/

/-- **A decision is taken down**, behind what was read before. -/
theorem record_yields (event : Event) (hF : R.Yields ctx' K r F s) :
    Derives R K (liftM (record event)) ctx s
      (fun K' _ t => R.Yields ctx' K' r F t) := by
  intro _ _ a t hrun
  cases hrun
  have hact : Acts root s { s with events := s.events.push event } :=
    .single (.record event)
  exact ⟨hact, K, subset_rfl, hF.rest hact ⟨rfl, rfl, rfl⟩,
    fun _ _ s' hs' => ⟨_, rfl, R.record hs' event⟩⟩

theorem unexpected_derives {Q : Set Mark → α → State → Prop}
    (expected : String) : Derives R K (unexpected expected) ctx s Q :=
  .never (fun _ _ h => nomatch h)

theorem tooDeep_derives {Q : Set Mark → α → State → Prop} :
    Derives R K tooDeep ctx s Q :=
  .never (fun _ _ h => nomatch h)

/-! ## Names and literals -/

/-- **A token is read as a name.** -/
theorem identifierOf_derives (heof : s.current.isEof = false) :
    Derives R ∅ (liftM advance >>= fun token => pure (identifierOf token))
      ctx s (fun K id t => R.Yields ctx K s [.identifier id] t) :=
  .advance heof (fun _ => rfl)
    (.pure (.wrap (.token heof) rfl (fun _ => rfl) rfl rfl))

theorem identifier_derives :
    Derives R ∅ identifier ctx s
      (fun K id t => R.Yields ctx K s [.identifier id] t) := by
  refine .ask (fun t => decide (t.kind = .identifier)) (fun _ _ => rfl)
    (fun _ => rfl) (.ite (fun h => ?_) (fun _ => unexpected_derives _))
  exact identifierOf_derives
    (isEof_eq_false (of_decide_eq_true h) (fun h => nomatch h))

theorem propertyName_derives :
    Derives R ∅ propertyName ctx s
      (fun K id t => R.Yields ctx K s [.identifier id] t) :=
  .current (fun _ => rfl) (.ite
    (fun h => identifierOf_derives (isEof_of_namesProperty h))
    (fun _ => unexpected_derives _))

/-- **A token is read as a literal.** -/
theorem literal_derives (kind : LiteralKind)
    (heof : s.current.isEof = false) :
    Derives R ∅ (literal kind) ctx s
      (fun K l t => R.Yields ctx K s [.literal l] t) :=
  .advance heof (fun _ => rfl)
    (.pure (.wrap (.token heof) rfl (fun _ => rfl) rfl rfl))

theorem moduleName_derives :
    Derives R ∅ moduleName ctx s
      (fun K l t => R.Yields ctx K s [.literal l] t) := by
  refine .ask (fun t => decide (t.kind = .string)) (fun _ _ => rfl)
    (fun _ => rfl) (.ite (fun h => ?_) (fun _ => unexpected_derives _))
  exact literal_derives _
    (isEof_eq_false (of_decide_eq_true h) (fun h => nomatch h))

end Parse

end ScriptTree
