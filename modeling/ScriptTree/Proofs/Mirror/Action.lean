import Mathlib.Order.MinMax
import ScriptTree.Proofs.Mirror.Logic

/-!
# Tokens in both texts

The actions and productions that read one token. A token that is read in
the first text is one of the part, so the parse of the other text has the
same before it. A token that is only looked at need not be: behind the
part the first text may go on with anything, while the other one is at its
end. That a token is **not** of some kind may be seen from there all the
same, and this is what most of the looking is for (`Mirrors.test`).
-/

namespace ScriptTree

variable {M : Mirror} {E : State → Prop} {H B : Prop} {ctx : Context}
  {s s' t t' : State} {S : State → State → Prop} {α β : Type}

/-! ## What is asked of a token -/

/-- **A question about the kind and the text of a token**, to which the
end of the text is no answer. -/
structure Token.Asks (c : Token → Bool) : Prop where
  /-- Nothing else matters. -/
  congr {t u : Token} (hkind : t.kind = u.kind) (htext : t.text = u.text) :
    c t = c u
  /-- The end of the text is not asked for. -/
  eof {t : Token} (h : t.isEof = true) : c t = false

namespace Token

theorem asks_kind {kind : TokenKind} (h : kind ≠ .eof) :
    Asks (fun t => t.kind = kind) where
  congr hkind _ := by simp only [hkind]
  eof ht := decide_eq_false
    (fun hk => h (hk.symm.trans (of_decide_eq_true ht)))

theorem asks_punctuator (p : Punctuator) : Asks (·.isPunctuator p) :=
  asks_kind (fun h => nomatch h)

theorem asks_keyword (k : Keyword) : Asks (·.isKeyword k) :=
  asks_kind (fun h => nomatch h)

theorem asks_word (word : String) : Asks (·.isWord word) where
  congr hkind htext := by simp only [isWord, hkind, htext]
  eof ht := by
    have h : _ = TokenKind.eof := of_decide_eq_true ht
    simp [isWord, h]

theorem asks_namesProperty : Asks Parse.namesProperty where
  congr hkind _ := by simp only [Parse.namesProperty, hkind]
  eof ht := by
    have h : _ = TokenKind.eof := of_decide_eq_true ht
    simp [Parse.namesProperty, h]

/-- **A question that is answered alike** for a token and the one that
mirrors it. -/
theorem Asks.token {c : Token → Bool} (hc : Asks c) (t : Token) :
    c (M.token t) = c t :=
  hc.congr rfl rfl

end Token

namespace Mirror

/-- What is seen in the other text is seen in the first. -/
theorem Start.asks {c : Token → Bool} (h : M.Start s s')
    (hc : Token.Asks c) (hfalse : c s.current = false) :
    c s'.current = false := by
  rcases h with h | h
  · rw [h.current_eq, hc.token, hfalse]
  · exact hc.eof h.isEof

theorem Fresh.asks {c : Token → Bool} (h : M.Fresh s s')
    (hc : Token.Asks c) : c s'.current = c s.current := by
  rw [h.current_eq, hc.token]

theorem Fresh.kind_eq (h : M.Fresh s s') :
    s'.current.kind = s.current.kind := by
  rw [h.current_eq]
  rfl

theorem Fresh.start_eq (h : M.Fresh s s') :
    s'.current.span.start = M.place s.current.span.start := by
  rw [h.current_eq]
  rfl

theorem Fresh.here_eq (h : M.Fresh s s') : s'.here = M.place s.here := by
  unfold State.here
  rw [h.current_eq]
  rfl

theorem Start.consumedTo_eq (h : M.Start s s') :
    s'.consumedTo = M.place s.consumedTo :=
  h.elim (·.consumedTo_eq) (·.consumedTo_eq)

theorem Along.consumedTo_eq (h : M.Along s s') :
    s'.consumedTo = M.place s.consumedTo := h.start.consumedTo_eq

theorem Along.inside [M.Lawful] (h : M.Along s s') (hmore : M.More s) :
    M.Inside s s' := h.at_.inside_of_more hmore

section Places

variable [M.Lawful]

theorem place_monotone : Monotone M.place := fun _ _ => Lawful.place_mono

/-- What has been read since an offset lies in its place in the other
text. -/
theorem spanFrom_eq (h : s'.consumedTo = M.place s.consumedTo)
    (start : Nat) :
    s'.spanFrom (M.place start) = (s.spanFrom start).move M.place := by
  unfold State.spanFrom Span.move
  rw [h, place_monotone.map_max]

/-- The least span that holds two is the same in both texts. -/
theorem cover_move (a b : Span) :
    (a.move M.place).cover (b.move M.place) = (a.cover b).move M.place := by
  unfold Span.cover Span.move
  rw [place_monotone.map_min, place_monotone.map_max]

end Places

end Mirror

/-! ## What reading a token changes -/

namespace State

variable (root : Context) (s : State)

theorem bump_current : (s.bump root).current = s.scanner.peek := by
  obtain ⟨t, _, heq⟩ := bump_eq root s
  rw [heq]
  rfl

theorem bump_scanner :
    (s.bump root).scanner = s.scanner.nextSignificant.scanner := by
  obtain ⟨t, _, heq⟩ := bump_eq root s
  rw [heq]

theorem bump_consumedTo :
    (s.bump root).consumedTo = s.current.span.stop := by
  obtain ⟨t, _, heq⟩ := bump_eq root s
  rw [heq]

theorem bump_newlineBefore : (s.bump root).newlineBefore
    = s.scanner.nextSignificant.extras.any (·.kind = .lineBreak) := by
  obtain ⟨t, _, heq⟩ := bump_eq root s
  rw [heq]

theorem head?_bump : (s.bump root).taken.head? = some s.current := by
  obtain ⟨t, _, heq⟩ := bump_eq root s
  rw [heq]
  rfl

end State

/-! ## Actions as productions -/

theorem lift_bind {x : Action α} {f : α → Action β} :
    (liftM (x >>= f) : Parse β) = liftM x >>= fun a => liftM (f a) := by
  funext ctx s
  rw [Parse.bind_run]
  rfl

theorem lift_ite {c : Prop} [Decidable c] (x y : Action α) :
    (liftM (if c then x else y) : Parse α)
      = if c then liftM x else liftM y := by
  split <;> rfl

theorem lift_map (f : α → β) (x : Action α) :
    (liftM (f <$> x) : Parse β) = f <$> liftM x := by
  funext ctx s
  rfl

theorem lift_discard (x : Action α) :
    (liftM (Functor.discard x) : Parse PUnit) = Functor.discard (liftM x) := by
  funext ctx s
  rfl

namespace Parse

open ScriptTree.Action

namespace Mirrors

variable [HasNodes α] [HasNodes β] {μ : α → α} {ν : β → β}

/-- **A token is asked for** before it is read: if it is there it is one
of the part, and if it is not it is not there in the other text either. -/
theorem test [M.Lawful] [M.Backward E] {c : Token → Bool}
    {x y x' y' : Parse α} (hc : Token.Asks c) (hstart : H → M.Start s s')
    (hpast : c s.current = true →
      Ensures M.root x ctx s (fun _ t => s.here < t.consumedTo))
    (hx : c s.current = true →
      Mirrors M E (H ∧ M.Fresh s s') B μ x x' ctx s s' S)
    (hy : c s.current = false → Mirrors M E H B μ y y' ctx s s' S) :
    Mirrors M E H B μ (if c s.current = true then x else y)
      (if c s'.current = true then x' else y') ctx s s' S := by
  cases h : c s.current with
  | true =>
    rw [if_pos rfl]
    refine .begin (hpast h) hstart (.congr (fun hH => ?_) (hx h))
    rw [if_pos ((hH.2.asks hc).trans h)]
  | false =>
    rw [if_neg Bool.false_ne_true]
    refine .congr (fun hH => ?_) (hy h)
    rw [(hstart hH).asks hc h, if_neg Bool.false_ne_true]

/-- What has been read since an offset is known in both texts. -/
theorem span [M.Lawful] {f f' : Span → Parse β} {start : Nat}
    (h : H → s'.consumedTo = M.place s.consumedTo)
    (hf : Mirrors M E H B ν (f (s.spanFrom start))
      (f' ((s.spanFrom start).move M.place)) ctx s s' S) :
    Mirrors M E H B ν (liftM (spanFrom start) >>= f)
      (liftM (spanFrom (M.place start)) >>= f') ctx s s' S := by
  refine .look (s.spanFrom start) (s'.spanFrom (M.place start)) rfl rfl ?_
  refine .congr (fun hH => ?_) hf
  rw [Mirror.spanFrom_eq (h hH)]

/-- The place where something begins is known in both texts. -/
theorem here [M.Lawful] {f f' : Nat → Parse β} (h : H → M.Fresh s s')
    (hf : Mirrors M E H B ν (f s.here) (f' (M.place s.here)) ctx s s' S) :
    Mirrors M E H B ν (liftM here >>= f) (liftM here >>= f') ctx s s' S := by
  refine .look s.here s'.here rfl rfl (.congr (fun hH => ?_) hf)
  rw [(h hH).here_eq]

omit [HasNodes α] in
/-- An action that is made of two. -/
theorem lift_bind {x x' : Action α} {f f' : α → Action β}
    (h : Mirrors M E H B ν (liftM x >>= fun a => liftM (f a))
      (liftM x' >>= fun a => liftM (f' a)) ctx s s' S) :
    Mirrors M E H B ν (liftM (x >>= f)) (liftM (x' >>= f')) ctx s s' S := by
  rw [ScriptTree.lift_bind, ScriptTree.lift_bind]
  exact h

end Mirrors

/-! ## Reading a token -/

section Tokens

variable [M.Lawful] [hE : M.Backward E]

/-- **A token is read.** -/
theorem advance_mirrors (h : H → M.Fresh s s')
    (heof : s.current.isEof = false) :
    Mirrors M E H False M.token (liftM advance) (liftM advance) ctx s s'
      M.At where
  runs := .lift ((advance_ensures heof).mono (fun _ _ _ _ => trivial))
  marks h := h.elim
  same hH hctx hs a t hrun ht _ := by
    have hfresh := h hH
    have hbump : s.bump ctx = s.bump M.root := State.bump_congr hctx s
    have hbump' : s'.bump (M.reflect ctx) = s'.bump M.image :=
      State.bump_congr (M.within_image hctx) s'
    cases hrun
    refine ⟨s'.bump M.image, ?_, ?_⟩
    · show (Except.ok s'.current, s'.bump (M.reflect ctx)) = _
      rw [hbump', hfresh.current_eq]
    · have hfits : M.Fits (s.bump ctx) := hE.fits ht
      rw [hbump] at hfits
      show M.At (s.bump ctx) _
      rw [hbump]
      exact Mirror.Lawful.bump hfresh heof hfits

/-- A token that is no dot may be the last of a construct. -/
theorem advance_mirrors_along (h : H → M.Fresh s s')
    (heof : s.current.isEof = false)
    (hdot : s.current.isPunctuator .dot = false) :
    Mirrors M E H False M.token (liftM advance) (liftM advance) ctx s s'
      M.Along where
  runs := (advance_mirrors (E := E) h heof).runs
  marks h := h.elim
  same hH hctx hs a t hrun ht hunmarked := by
    obtain ⟨t', hq, hat⟩ :=
      (advance_mirrors h heof).same hH hctx hs hrun ht hunmarked
    refine ⟨t', hq, hat, fun token htoken => ?_⟩
    cases hrun
    rw [State.head?_bump] at htoken
    rw [← Option.some.inj htoken]
    exact hdot

omit [M.Lawful] in
/-- **The current token is read**, and it is known which one it is. -/
theorem Mirrors.read [HasNodes β] {ν : β → β} {S₁ : State → State → Prop}
    {f f' : Token → Parse β} (h : H → M.Fresh s s')
    (hx : Mirrors M E H False M.token (liftM advance) (liftM advance) ctx s
      s' S₁)
    (hf : ∀ t t', Mirrors M E (H ∧ S₁ t t') B ν (f s.current)
      (f' (M.token s.current)) ctx t t' S) :
    Mirrors M E H B ν (liftM advance >>= f) (liftM advance >>= f') ctx s s'
      S := by
  have hread : Mirrors M E H B ν (liftM advance >>= fun _ => f s.current)
      (liftM advance >>= fun _ => f' (M.token s.current)) ctx s s' S :=
    hx.seq (fun _ t t' => hf t t')
  have hother : Mirrors M E H B ν (liftM advance >>= fun _ => f s.current)
      (liftM advance >>= f') ctx s s' S := by
    refine .congr (fun hH => ?_) hread
    show f' s'.current _ _ = f' (M.token s.current) _ _
    rw [(h hH).current_eq]
  refine .congrRun ?_ hother
  rfl

/-- A token of another kind is no dot. -/
theorem isDot_eq_false {token : Token} {kind : TokenKind}
    (h : token.kind = kind) (hne : kind ≠ .punctuator .dot) :
    token.isPunctuator .dot = false := by
  unfold Token.isPunctuator
  rw [h]
  exact decide_eq_false hne

/-- **A token of a given kind is read.** -/
theorem advance_mirrors_kind {kind : TokenKind} (h : H → M.Fresh s s')
    (hkind : s.current.kind = kind) (heof : kind ≠ .eof)
    (hdot : kind ≠ .punctuator .dot) :
    Mirrors M E H False M.token (liftM advance) (liftM advance) ctx s s'
      M.Along :=
  advance_mirrors_along h (isEof_eq_false hkind heof)
    (isDot_eq_false hkind hdot)

/-- **A word is read.** -/
theorem advance_mirrors_word {word : String} (h : H → M.Fresh s s')
    (hword : s.current.isWord word = true) :
    Mirrors M E H False M.token (liftM advance) (liftM advance) ctx s s'
      M.Along :=
  advance_mirrors_kind h (kind_of_isWord hword) (by decide) (by decide)

/-- **A mark is read if it comes next**, in both texts or in neither. -/
theorem eat_mirrors {p : Punctuator} (hp : p ≠ .dot)
    (h : H → M.Along s s') :
    Mirrors M E H False id (liftM (eat p)) (liftM (eat p)) ctx s s'
      M.Along := by
  refine .lift_bind (.look (s.current.isPunctuator p)
    (s'.current.isPunctuator p) rfl rfl ?_)
  simp only [lift_ite]
  refine .test (Token.asks_punctuator p) (fun hH => (h hH).start)
    (fun hmark => ?_) (fun hmark => ?_) (fun _ => ?_)
  · rw [ScriptTree.lift_bind]
    refine (Ensures.lift (advance_ensures
      (isEof_of_isPunctuator hmark)).discard).bind ?_
    rintro _ t _ ⟨_, htook⟩
    exact .pure htook.past
  · simp only [ScriptTree.lift_bind, lift_discard]
    refine (advance_mirrors_kind And.right (of_decide_eq_true hmark)
      (fun h => nomatch h) (fun h => hp (by simpa using h))).discard.seq
      (fun _ _ _ => ?_)
    exact .pure And.right False.elim rfl
  · exact .pure h False.elim rfl

/-- **A mark that is asked for is read.** -/
theorem expectPunctuator_mirrors {p : Punctuator} (hp : p ≠ .dot)
    (h : H → M.Start s s') :
    Mirrors M E H False M.token (expectPunctuator p) (expectPunctuator p)
      ctx s s' M.Along := by
  refine .look (s.current.isPunctuator p) (s'.current.isPunctuator p) rfl
    rfl ?_
  refine .test (Token.asks_punctuator p) h (fun hmark => ?_)
    (fun hmark => ?_) (fun _ => ?_)
  · exact (Ensures.lift (advance_ensures
      (isEof_of_isPunctuator hmark))).mono (fun _ _ _ htook => htook.past)
  · exact advance_mirrors_kind And.right (of_decide_eq_true hmark)
      (fun h => nomatch h) (fun h => hp (by simpa using h))
  · exact .never (.look s.current rfl (.throw _))

theorem expectKeyword_mirrors (k : Keyword) (h : H → M.Start s s') :
    Mirrors M E H False M.token (expectKeyword k) (expectKeyword k)
      ctx s s' M.Along := by
  refine .look (s.current.isKeyword k) (s'.current.isKeyword k) rfl rfl ?_
  refine .test (Token.asks_keyword k) h (fun hword => ?_)
    (fun hword => ?_) (fun _ => ?_)
  · exact (Ensures.lift (advance_ensures (isEof_of_isKeyword hword))).mono
      (fun _ _ _ htook => htook.past)
  · exact advance_mirrors_kind And.right (of_decide_eq_true hword)
      (fun h => nomatch h) (fun h => nomatch h)
  · exact .never (.look s.current rfl (.throw _))

theorem expectWord_mirrors (word : String) (h : H → M.Start s s') :
    Mirrors M E H False M.token (expectWord word) (expectWord word)
      ctx s s' M.Along := by
  refine .look (s.current.isWord word) (s'.current.isWord word) rfl rfl ?_
  refine .test (Token.asks_word word) h (fun hword => ?_)
    (fun hword => ?_) (fun _ => ?_)
  · exact (Ensures.lift (advance_ensures (isEof_of_isWord hword))).mono
      (fun _ _ _ htook => htook.past)
  · exact advance_mirrors_word And.right hword
  · exact .never (.look s.current rfl (.throw _))

omit [M.Lawful] in
/-- **A failure because of the current token** ends no run well. -/
theorem unexpected_mirrors [HasNodes α] {μ : α → α} (expected : String)
    {q : Parse α} :
    Mirrors M E H B μ (unexpected expected) q ctx s s' S :=
  .never (.look s.current rfl (.throw _))

/-- **The current token is read as a name.** -/
theorem identifierOf_mirrors (h : H → M.Fresh s s')
    (heof : s.current.isEof = false)
    (hdot : s.current.isPunctuator .dot = false) :
    Mirrors M E H False M.move
      (liftM advance >>= fun token => pure (identifierOf token))
      (liftM advance >>= fun token => pure (identifierOf token)) ctx s s'
      M.Along :=
  (advance_mirrors_along h heof hdot).seq
    (fun _ _ _ => .pure And.right False.elim rfl)

theorem identifier_mirrors (h : H → M.Start s s') :
    Mirrors M E H False M.move identifier identifier ctx s s' M.Along := by
  refine .look (decide (s.current.kind = .identifier))
    (decide (s'.current.kind = .identifier)) rfl rfl ?_
  refine .test (c := fun t => t.kind = .identifier)
    (Token.asks_kind (fun h => nomatch h)) h (fun hkind => ?_)
    (fun hkind => ?_) (fun _ => unexpected_mirrors _)
  · refine (Ensures.lift (advance_ensures (isEof_eq_false
      (of_decide_eq_true hkind) (fun h => nomatch h)))).bind
      (fun _ _ _ htook => .pure htook.past)
  · exact identifierOf_mirrors And.right
      (isEof_eq_false (of_decide_eq_true hkind) (fun h => nomatch h))
      (isDot_eq_false (of_decide_eq_true hkind) (fun h => nomatch h))

theorem isDot_of_namesProperty {token : Token}
    (h : namesProperty token = true) :
    token.isPunctuator .dot = false := by
  unfold namesProperty at h
  cases hk : token.kind <;> simp_all [Token.isPunctuator]

theorem propertyName_mirrors (h : H → M.Start s s') :
    Mirrors M E H False M.move propertyName propertyName ctx s s'
      M.Along := by
  refine .look s.current s'.current rfl rfl ?_
  refine .test Token.asks_namesProperty h (fun hname => ?_)
    (fun hname => ?_) (fun _ => unexpected_mirrors _)
  · refine (Ensures.lift (advance_ensures
      (isEof_of_namesProperty hname))).bind
      (fun _ _ _ htook => .pure htook.past)
  · exact identifierOf_mirrors And.right (isEof_of_namesProperty hname)
      (isDot_of_namesProperty hname)

theorem literal_mirrors (kind : LiteralKind) (h : H → M.Fresh s s')
    (heof : s.current.isEof = false)
    (hdot : s.current.isPunctuator .dot = false) :
    Mirrors M E H False M.move (literal kind) (literal kind) ctx s s'
      M.Along :=
  (advance_mirrors_along h heof hdot).seq
    (fun _ _ _ => .pure And.right False.elim rfl)

theorem moduleName_mirrors (h : H → M.Start s s') :
    Mirrors M E H False M.move moduleName moduleName ctx s s' M.Along := by
  refine .look (decide (s.current.kind = .string))
    (decide (s'.current.kind = .string)) rfl rfl ?_
  refine .test (c := fun t => t.kind = .string)
    (Token.asks_kind (fun h => nomatch h)) h (fun hkind => ?_)
    (fun hkind => ?_) (fun _ => unexpected_mirrors _)
  · exact (Ensures.lift (advance_ensures (isEof_eq_false
      (of_decide_eq_true hkind) (fun h => nomatch h)))).bind
      (fun _ _ _ htook => .pure htook.past)
  · exact literal_mirrors .string And.right
      (isEof_eq_false (of_decide_eq_true hkind) (fun h => nomatch h))
      (isDot_eq_false (of_decide_eq_true hkind) (fun h => nomatch h))

omit [M.Lawful] in
theorem tooDeep_mirrors [HasNodes α] {μ : α → α} {q : Parse α} :
    Mirrors M E H B μ tooDeep q ctx s s' S :=
  .never tooDeep_ensures

end Tokens

end Parse

end ScriptTree
