import ScriptTree.Proofs.Mirror.Grammar

/-!
# Looking ahead in both texts

A production may look at the token behind the current one. In the other
text this token is the same, or else the text has come to its end. So what
is not seen in the first text is not seen in the other one either; and
what is seen is the same in both if it is read afterwards.

Where a production looks ahead to decide what to do, it goes on to read
two tokens whatever it decides. `State.Twice` says that a run has done so,
and a run that is going to do so is known to stay inside the part beyond
the current token (`Mirror.Beyond`).
-/

namespace ScriptTree

variable {M : Mirror} {E : State → Prop} {H B : Prop} {root ctx : Context}
  {s s' t t' u : State} {S S' : State → State → Prop} {α β : Type}

/-! ## Two tokens -/

/-- **Two tokens have been read**, or more. -/
def State.Twice (root : Context) (s t : State) : Prop :=
  ∃ u, s.Leads root u ∧ s.here < u.consumedTo ∧ u.Leads root t
    ∧ u.here < t.consumedTo

namespace State.Twice

theorem sooner (hst : s.Leads root t) (h : t.Twice root u) :
    s.Twice root u := by
  obtain ⟨v, htv, hpast, hvu, hpast'⟩ := h
  exact ⟨v, hst.trans htv, Nat.lt_of_le_of_lt hst.here_le hpast, hvu,
    hpast'⟩

theorem later (h : s.Twice root t) (htu : t.Leads root u) :
    s.Twice root u := by
  obtain ⟨v, hsv, hpast, hvt, hpast'⟩ := h
  exact ⟨v, hsv, hpast, hvt.trans htu,
    Nat.lt_of_lt_of_le hpast' htu.consumedTo_le⟩

theorem beyond (h : s.Twice M.root t) (ht : M.Fits t) : M.Beyond s := by
  obtain ⟨u, hsu, hpast, hut, hpast'⟩ := h
  exact ⟨u, hsu, hpast, t, hut, ht, hpast'⟩

end State.Twice

namespace Parse

open ScriptTree.Action

namespace Ensures

variable {x : Parse α} {f : α → Parse β}

/-- What begins by reading a token has read it in the end. -/
theorem past (hx : Ensures root x ctx s (fun _ t => s.here < t.consumedTo))
    (hf : ∀ a t, Ensures root (f a) ctx t (fun _ _ => True)) :
    Ensures root (x >>= f) ctx s (fun _ t => s.here < t.consumedTo) :=
  hx.bind (fun a t _ hpast => .later hpast (hf a t))

/-- A token and another one are two. -/
theorem twice (hx : Ensures root x ctx s (fun _ t => s.here < t.consumedTo))
    (hf : ∀ a t, Ensures root (f a) ctx t
      (fun _ u => t.here < u.consumedTo)) :
    Ensures root (x >>= f) ctx s (fun _ t => s.Twice root t) :=
  hx.bind (fun a t hst hpast => (hf a t).mono
    (fun _ _ htu hpast' => ⟨t, hst, hpast, htu, hpast'⟩))

theorem twiceLater (hx : Ensures root x ctx s (fun _ _ => True))
    (hf : ∀ a t, Ensures root (f a) ctx t (fun _ u => t.Twice root u)) :
    Ensures root (x >>= f) ctx s (fun _ t => s.Twice root t) :=
  hx.bind (fun a t hst _ => (hf a t).mono (fun _ _ _ h => h.sooner hst))

end Ensures

/-- The current token is passed. -/
theorem advance_past (heof : s.current.isEof = false) :
    Ensures root (discard (liftM advance)) ctx s
      (fun _ t => s.here < t.consumedTo) :=
  (Ensures.lift (advance_ensures heof)).discard.mono
    (fun _ _ _ ⟨_, h⟩ => h.past)

/-- A mark that is asked for is passed. -/
theorem expectPunctuator_past (p : Punctuator) :
    Ensures root (discard (expectPunctuator p)) ctx s
      (fun _ t => s.here < t.consumedTo) :=
  (expectPunctuator_ensures p).discard.mono (fun _ _ _ ⟨_, h⟩ => h.past)

/-! ## Tokens that are not seen -/

section Peek

/-- A token of another kind is no slash. -/
theorem isSlash_eq_false {token : Token} {kind : TokenKind}
    (h : token.kind = kind) (hslash : kind ≠ .punctuator .slash)
    (hslashEq : kind ≠ .punctuator .slashEq) :
    token.isSlash = false := by
  unfold Token.isSlash Token.isPunctuator
  rw [h, decide_eq_false hslash, decide_eq_false hslashEq]
  rfl

theorem isSlash_of_isWord {token : Token} {word : String}
    (h : token.isWord word = true) : token.isSlash = false :=
  isSlash_eq_false (kind_of_isWord h) (by decide) (by decide)

/-- **What does not come next in the first text** does not come next in the
other one. -/
theorem peek_asks [M.Lawful] {c : Token → Bool} (h : M.Fresh s s')
    (hfits : M.Fits s) (hslash : s.current.isSlash = false)
    (hc : Token.Asks c) (hfalse : c s.scanner.peek = false) :
    c s'.scanner.peek = false := by
  rcases Mirror.Lawful.next (Mirror.Lawful.twin h hfits hslash) with h | h
  · rw [h.1, hc.token, hfalse]
  · exact hc.eof h

namespace Mirrors

variable [hE : M.Backward E] [HasNodes α] [HasNodes β] {μ : α → α}
  {ν : β → β}

/-- One production after another, the second of which reads two tokens. -/
theorem bindBeyond {x x' : Parse α} {f f' : α → Parse β}
    (hx : Mirrors M M.Beyond H False μ x x' ctx s s' S)
    (htwice : ∀ a t, Ensures M.root (f a) ctx t
      (fun _ u => t.Twice M.root u))
    (hf : ∀ a t t', Mirrors M E (H ∧ S t t') (B ∨ M.Marked a) ν (f a)
      (f' (μ a)) ctx t t' S') :
    Mirrors M E H B ν (x >>= f) (x' >>= f') ctx s s' S' :=
  (hx.bindTo hf (fun a t => (htwice a t).mono
    (fun _ _ _ h _ hu => h.beyond (hE.fits hu)))).mono id .inl
    (fun _ => id) (fun _ _ => id)

/-- What reads two tokens goes on beyond the current one. -/
theorem beyond {p q : Parse α}
    (hp : Ensures M.root p ctx s (fun _ t => s.Twice M.root t))
    (h : Mirrors M E (H ∧ M.Beyond s) B μ p q ctx s s' S) :
    Mirrors M E H B μ p q ctx s s' S :=
  h.of_end (fun _ _ hctx hs _ hrun _ ht =>
    (hp.of_run hctx hs hrun).2.beyond (hE.fits ht))

/-- **A token is asked for that comes next.** Where it does it is read. -/
theorem peek [M.Lawful] {c : Token → Bool} {x y x' y' : Parse α}
    (hc : Token.Asks c) (h : H → M.Fresh s s')
    (hslash : s.current.isSlash = false)
    (htwice : c s.scanner.peek = true →
      Ensures M.root x ctx s (fun _ t => s.Twice M.root t))
    (hx : c s.scanner.peek = true →
      Mirrors M E (H ∧ M.Beyond s) B μ x x' ctx s s' S)
    (hy : c s.scanner.peek = false → Mirrors M E H B μ y y' ctx s s' S) :
    Mirrors M E H B μ (if c s.scanner.peek = true then x else y)
      (if c s'.scanner.peek = true then x' else y') ctx s s' S := by
  cases hseen : c s.scanner.peek with
  | true =>
    rw [if_pos rfl]
    refine .beyond (htwice hseen) (.congr (fun hH => ?_) (hx hseen))
    rw [Mirror.Lawful.seen (h hH.1) hslash hH.2, hc.token, if_pos hseen]
  | false =>
    rw [if_neg Bool.false_ne_true]
    refine .of_fits (.congr (fun hH => ?_) ((hy hseen).mono And.left id
      (fun _ => id) (fun _ _ => id)))
    rw [peek_asks (h hH.1) hH.2 hslash hc hseen,
      if_neg Bool.false_ne_true]

end Mirrors

end Peek

/-! ## Modifiers -/

section Modifiers

variable [M.Lawful]

/-- **A modifier is one in both texts**, if a name and more is read behind
it. -/
theorem modifier_mirrors (word : String) (h : H → M.Along s s') :
    Mirrors M M.Beyond H False id (liftM (modifier word))
      (liftM (modifier word)) ctx s s' M.Along := by
  refine .of_back (.lift_bind (.look (s.current.isWord word)
    (s'.current.isWord word) rfl rfl (.lift_bind (.look s.scanner.peek
      s'.scanner.peek rfl rfl ?_))))
  rw [lift_ite, lift_ite]
  have hfresh (h' : H ∧ M.Beyond s) : M.Fresh s s' :=
    ((h h'.1).inside h'.2.more).toFresh
  refine .ite (fun hH => ?_) (fun hword => ?_) (fun _ => ?_)
  · rw [(hfresh hH).asks (Token.asks_word word)]
    cases hword : s.current.isWord word with
    | false => rfl
    | true =>
      rw [Mirror.Lawful.seen (hfresh hH) (isSlash_of_isWord hword) hH.2]
      rfl
  · rw [Bool.and_eq_true] at hword
    simp only [ScriptTree.lift_bind, lift_discard]
    exact (advance_mirrors_word hfresh hword.1).discard.seq
      (fun _ _ _ => .pure And.right False.elim rfl)
  · exact .pure (fun hH => h hH.1) False.elim rfl

theorem methodKind_mirrors (h : H → M.Along s s') :
    Mirrors M M.Beyond H False id (liftM methodKind) (liftM methodKind) ctx
      s s' M.Along := by
  refine .lift_bind ((eat_mirrors (by decide) h).seq (fun _ t t' => ?_))
  rw [lift_ite, lift_ite]
  refine .ite (fun _ => Iff.rfl) (fun _ => .pure And.right False.elim rfl)
    (fun _ => ?_)
  refine .lift_bind ((modifier_mirrors "get" And.right).seq
    (fun _ u u' => ?_))
  rw [lift_ite, lift_ite]
  refine .ite (fun _ => Iff.rfl) (fun _ => .pure And.right False.elim rfl)
    (fun _ => ?_)
  refine .lift_bind ((modifier_mirrors "set" And.right).seq
    (fun _ v v' => ?_))
  rw [lift_ite, lift_ite]
  exact .ite (fun _ => Iff.rfl) (fun _ => .pure And.right False.elim rfl)
    (fun _ => .pure And.right False.elim rfl)

end Modifiers

end Parse

end ScriptTree
