import ScriptTree.Proofs.Patch.Text

/-!
# Scanning two texts that differ in patches

Two scanners at the same place of a text and of the one it is patched to be
find the same tokens (`Scanner.Near.nextSignificant`), if nothing is wrong
with these, no patch lies in them, and the comments on the way are left to
be comments where patches lie in them.

At a spot a line break may end a statement in one of the texts only. In the
other one another line break may do so in its place, and so the scanners
need not remember the same while a spot is between them and the last token.
Where there is no spot between two tokens, they give out line breaks there
in both texts or in neither.
-/

namespace ScriptTree

/-- **A token that patches leave alone**: none lies in it, and no comment is
put right behind a slash. -/
structure Token.Spares (X : Patches) (t : Token) : Prop where
  /-- Nothing is wrong with it. -/
  clear : t.error = none
  /-- No patch lies in it. -/
  apart : ∀ p ∈ X.spans, t.span.stop ≤ p.start ∨ p.stop ≤ t.span.start
  /-- No comment is put behind a slash. -/
  slash : X.filling = .spaces → t.kind = .punctuator .slash →
    ∀ p ∈ X.spans, p.start ≠ t.span.stop

/-- **A comment that patches leave to be one.** A patch is the comment, or
lies apart from it, or lies in it while a comment stands in its place in the
other text. -/
structure Token.Outlasts (X : Patches) (other : List Char) (t : Token) :
    Prop where
  /-- Nothing is wrong with it. -/
  clear : t.error = none
  /-- It is left to be a comment. -/
  whole : ∀ p ∈ X.spans, p = t.span ∨ t.span.stop ≤ p.start
    ∨ p.stop ≤ t.span.start ∨ t.span.start ≤ p.start
      ∧ p.stop ≤ t.span.stop ∧ IsComment (t.span.slice other) []
  /-- No line break is patched that it goes on to. -/
  line : X.filling = .lineBreak → t.text.startsWith "//" = true →
    ∀ p ∈ X.spans, p.start ≠ t.span.stop

/-- **Two scanners at the same place** of the two texts. -/
structure Scanner.Near (X : Patches) (x x' : Scanner) : Prop where
  /-- The one stands somewhere in its text. -/
  at_ : ∃ before, x.At before
  /-- So does the other. -/
  at' : ∃ before, x'.At before
  /-- It is the same place. -/
  offset_eq : x'.position.offset = x.position.offset
  /-- They remember the same token. -/
  previous_eq : x'.previous = x.previous
  /-- What is left of the one text is patched. -/
  rests : Patched X x.position.offset x.rest x'.rest

/-- **Two steps to the same token.** The same line breaks have been given
out on the way if `c` holds. -/
structure Advance.Near (c : Prop) (X : Patches) (a a' : Advance) : Prop where
  /-- The tokens are the same. -/
  token : a.token.Agrees a'.token
  /-- The scanners are at the same place. -/
  scanner : a.scanner.Near X a'.scanner
  /-- They remember the same, unless the text ends there. -/
  breakEmitted_eq : a.token.isEof = false →
    a'.scanner.breakEmitted = a.scanner.breakEmitted
  /-- Nothing is wrong with what is found in the other text. -/
  clear : a'.token.error = none
  /-- Nor with what is passed there. -/
  clear_extras : ∀ y ∈ a'.extras, y.error = none
  /-- A line break is among what is passed in both or in neither. -/
  any_eq : c → a'.extras.any (·.kind = .lineBreak)
    = a.extras.any (·.kind = .lineBreak)

namespace Scanner

variable {X : Patches} {x x' : Scanner} {c c' : Char}
  {cs cs' other : List Char} {found found' : List Token}

namespace Near

/-- **A piece is passed** in both texts, and what is behind it is
patched. -/
theorem past (h : x.Near X x') {n n' : Nat}
    (hlength : byteLength (x'.rest.take n') = byteLength (x.rest.take n))
    (hrests : Patched X (x.position.offset + byteLength (x.rest.take n))
      (x.rest.drop n) (x'.rest.drop n')) :
    (x.past n).Near X (x'.past n') where
  at_ := h.at_.imp' _ (fun _ hat => hat.past n)
  at' := h.at'.imp' _ (fun _ hat => hat.past n')
  offset_eq := by
    rw [past_offset, past_offset, h.offset_eq, hlength]
  previous_eq := h.previous_eq
  rests := by
    rw [past_offset, past_rest, past_rest]
    exact hrests

/-- Past the next character in both texts. -/
theorem past_one (h : x.Near X x') (hrest : x.rest = c :: cs)
    (hrest' : x'.rest = c' :: cs') (hsize : c'.utf8Size = c.utf8Size)
    (hrests : Patched X (x.position.offset + c.utf8Size) cs cs') :
    (x.past 1).Near X (x'.past 1) := by
  refine h.past ?_ ?_
  · rw [hrest, hrest']
    simp [hsize]
  · rw [hrest, hrest']
    simpa using hrests

/-- Whether a line break has been given out is of no account. -/
theorem give (h : x.Near X x') (b b' : Bool) :
    Near X { x with breakEmitted := b } { x' with breakEmitted := b' } where
  at_ := h.at_.imp (fun _ hat => ⟨hat.source_eq, hat.position_eq⟩)
  at' := h.at'.imp (fun _ hat => ⟨hat.source_eq, hat.position_eq⟩)
  offset_eq := h.offset_eq
  previous_eq := h.previous_eq
  rests := h.rests

/-- A token is remembered in both texts. -/
theorem remember (h : x.Near X x') (kind : TokenKind) :
    (x.remember kind).Near X (x'.remember kind) where
  at_ := h.at_.imp' _ (fun _ hat => hat.remember kind)
  at' := h.at'.imp' _ (fun _ hat => hat.remember kind)
  offset_eq := by
    rw [remember_position, remember_position]
    exact h.offset_eq
  previous_eq := remember_previous_congr h.previous_eq kind
  rests := by
    rw [remember_position, remember_rest, remember_rest]
    exact h.rests

/-- **The same piece is cut off** in both texts. -/
theorem take (h : x.Near X x') (kind : TokenKind) {p y z : List Char}
    (hrest : x.rest = p ++ y) (hrest' : x'.rest = p ++ z)
    (hbehind : Patched X (x.position.offset + byteLength p) y z) :
    (x.take kind p.length none).1.Agrees (x'.take kind p.length none).1
      ∧ (x.past p.length).Near X (x'.past p.length) := by
  refine ⟨take_agrees h.offset_eq ?_ _ _, h.past ?_ ?_⟩
  · rw [hrest, hrest', List.take_left, List.take_left]
  · rw [hrest, hrest', List.take_left, List.take_left]
  · rw [hrest, hrest', List.take_left, List.drop_left, List.drop_left]
    exact hbehind

/-- The same line break matters in both texts, if a chain goes on behind it
in both or in neither. -/
theorem breakMatters_eq (h : x.Near X x')
    (hchain : continuesChain cs' = continuesChain cs)
    (hbreak : x'.breakEmitted = x.breakEmitted) :
    x'.breakMatters cs' = x.breakMatters cs := by
  unfold breakMatters
  rw [h.previous_eq, hbreak, hchain]

/-- **A token of the grammar** is found in both texts. -/
theorem token (h : x.Near X x') (hrest : x.rest = c :: cs)
    (hblank : isBlank c = false) (hline : c ≠ '\n')
    (hkind : x.next.1.kind ≠ .comment) (hspares : x.next.1.Spares X) :
    x.next.1.Agrees x'.next.1 ∧ x.next.2.Near X x'.next.2
      ∧ x.next.2.breakEmitted = (x.next.1.kind.isExtra && x.breakEmitted)
      ∧ x'.next.2.breakEmitted
        = (x.next.1.kind.isExtra && x'.breakEmitted) := by
  have hnext := next_cons hrest hblank hline
  have hextent := Lexeme.atFront_extent_le
    (x.previous.any TokenKind.canEndExpression) c cs
  generalize hlexeme : Lexeme.atFront
    (x.previous.any TokenKind.canEndExpression) c cs = lexeme at hnext hextent
  obtain ⟨kind, n, error⟩ := lexeme
  rw [hnext] at hspares hkind
  obtain rfl : error = none := hspares.clear
  have hstop : (x.take kind (n + 1) none).1.span.stop
      = x.position.offset + byteLength (x.rest.take (n + 1)) :=
    Position.advanceBy_offset _ _
  obtain ⟨p, y, z, hp, hp', hlength, hbehind⟩ := h.rests.exists_piece
    (n := n + 1) (by rw [hrest]; exact Nat.succ_le_succ hextent)
    (fun q hq hpos hle => by
      rw [← hstop]
      refine (hspares.apart q hq).resolve_right (fun hbefore => ?_)
      exact absurd (Nat.lt_of_lt_of_le hpos hbefore) (Nat.not_lt.2 hle))
  obtain ⟨d, v, rfl⟩ := List.exists_cons_of_ne_nil
    (show p ≠ [] from List.ne_nil_of_length_eq_add_one hlength)
  obtain ⟨rfl, rfl⟩ := List.cons.inj (hrest.symm.trans hp)
  obtain rfl : v.length = n := Nat.succ.inj hlength
  rw [hp, show v.length + 1 = (c :: v).length from rfl, List.take_left]
    at hstop
  have hsame : Lexeme.atFront (x.previous.any TokenKind.canEndExpression) c
      (v ++ z) = ⟨kind, v.length, none⟩ :=
    Lexeme.atFront_follow hbehind.mayFollow hkind
      (fun hslash hhead => (hbehind.head_of_slash hhead).resolve_right
        (fun ⟨hspaces, _, q, hq, hstart⟩ =>
          hspares.slash hspaces hslash q hq (hstart.trans hstop.symm)))
      hlexeme
  have hnext' := next_cons hp' hblank hline
  rw [h.previous_eq, List.append_eq, hsame] at hnext'
  rw [hnext, hnext']
  obtain ⟨hagrees, hnear⟩ := h.take kind hp hp' hbehind
  exact ⟨hagrees, hnear.remember kind, remember_breakEmitted _ _,
    remember_breakEmitted _ _⟩

end Near

/-! ## On the way to a token -/

/-- **Two scanners on the way to a token**, with what they have found so
far. If `c` holds they have given out the same line breaks, and no spot is
on their way, but all line breaks outside of comments are of account. -/
structure Along (c : Prop) (X : Patches) (other : List Char) (a : Advance)
    (x x' : Scanner) (found found' : List Token) : Prop where
  /-- They are at the same place. -/
  near : x.Near X x'
  /-- The other is in the other text. -/
  source_eq : x'.source = other
  /-- This is where the one will come. -/
  leads : x.nextSignificantFrom found = a
  /-- Nothing is wrong with what the other has found. -/
  clear : ∀ y ∈ found', y.error = none
  /-- They remember the same line break. -/
  breakEmitted_eq : c → x'.breakEmitted = x.breakEmitted
  /-- There is a line break among what both have found, or none. -/
  any_eq : c → found'.any (·.kind = .lineBreak)
    = found.any (·.kind = .lineBreak)
  /-- All spots are behind them, or behind the token. -/
  past : c → ∀ q ∈ X.spots, q < x.position.offset ∨ a.token.span.start ≤ q
  /-- Before the token, line breaks outside of comments are of account. -/
  breaks : c → ∀ q, x.position.offset ≤ q → q < a.token.span.start →
    (∀ y ∈ a.extras, y.kind ≠ .lineBreak →
      q < y.span.start ∨ y.span.stop ≤ q) → q ∈ X.breaks
  /-- What the one has found is behind it. -/
  found_le : ∀ y ∈ found, y.span.stop ≤ x.position.offset

/-- **A little further on the way**, the two scanners come to the same
token. -/
def GoesOn (c : Prop) (X : Patches) (other : List Char) (a : Advance)
    (x x' : Scanner) (found' : List Token) : Prop :=
  ∃ y y' f f', Along c X other a y y' f f' ∧ y.rest.length < x.rest.length
    ∧ x'.nextSignificantFrom found' = y'.nextSignificantFrom f'

namespace Along

variable {p : Prop} {a : Advance}

/-- **A piece is passed** that says nothing of line breaks. -/
theorem trivia (h : Along p X other a x x' found found') {y y' : Scanner}
    {f f' : List Token} (hnear : y.Near X y')
    (hsource : y'.source = x'.source)
    (hleads : x.nextSignificantFrom found = y.nextSignificantFrom f)
    (hclear : ∀ t ∈ f', t.error = none)
    (hbreak : y.breakEmitted = x.breakEmitted)
    (hbreak' : y'.breakEmitted = x'.breakEmitted)
    (hany : f.any (·.kind = .lineBreak) = found.any (·.kind = .lineBreak))
    (hany' : f'.any (·.kind = .lineBreak)
      = found'.any (·.kind = .lineBreak))
    (hoffset : x.position.offset ≤ y.position.offset)
    (hfound : ∀ t ∈ f, t.span.stop ≤ y.position.offset) :
    Along p X other a y y' f f' where
  near := hnear
  source_eq := hsource.trans h.source_eq
  leads := hleads.symm.trans h.leads
  clear := hclear
  breakEmitted_eq hp := by rw [hbreak, hbreak', h.breakEmitted_eq hp]
  any_eq hp := by rw [hany, hany', h.any_eq hp]
  past hp q hq := (h.past hp q hq).imp_left
    (fun hlt => Nat.lt_of_lt_of_le hlt hoffset)
  breaks hp q hle := h.breaks hp q (Nat.le_trans hoffset hle)
  found_le := hfound

/-- **Blanks are passed**, in the other text the same or a comment. -/
theorem blank (h : Along p X other a x x' found found')
    (hrest : x.rest = c :: cs) (hblank : isBlank c = true) :
    GoesOn p X other a x x' found' := by
  have hwhite : ∀ {s : Scanner} {w z}, s.rest = w ++ z →
      (∀ c ∈ w, isBlank c = true) → ∀ f,
      s.nextSignificantFrom f = (s.past w.length).nextSignificantFrom f :=
    fun hs hw f => (nextSignificantFrom_congr (next_past_blanks hw hs) f).symm
  have hoffset : ∀ n, x.position.offset ≤ (x.past n).position.offset := by
    intro n
    rw [past_offset]
    exact Nat.le_add_right _ _
  have hfound : ∀ n, ∀ y ∈ found,
      y.span.stop ≤ (x.past n).position.offset :=
    fun n y hy => Nat.le_trans (h.found_le y hy) (hoffset n)
  rcases (hrest ▸ h.near.rests).cons with ⟨cs', hrest', -, hrests⟩ |
    ⟨w, y, w', z, hcs, hrest', fits, -, -, hrests⟩
  · have hone : ∀ d ∈ [c], isBlank d = true :=
      List.forall_mem_singleton.2 hblank
    refine ⟨x.past 1, x'.past 1, found, found',
      h.trivia (h.near.past_one hrest hrest' rfl hrests) rfl
        (hwhite (w := [c]) hrest hone _) h.clear rfl rfl rfl rfl (hoffset 1)
        (hfound 1), ?_, hwhite (w := [c]) hrest' hone _⟩
    rw [past_rest, hrest]
    exact Nat.lt_succ_self _
  · rw [hcs] at hrest
    have hpos := List.length_pos_iff.2 fits.ne_nil
    have hlength := fits.byteLength_eq
    cases hf : X.filling with
    | lineBreak =>
      rw [hf] at fits
      cases fits
      obtain ⟨rfl, -⟩ := List.cons.inj hcs
      exact absurd hblank (by decide)
    | comment =>
      rw [hf] at fits
      cases fits with
      | comment hcomment =>
        obtain ⟨v, rfl, -⟩ := hcomment.exists_lexeme
        obtain ⟨rfl, -⟩ := List.cons.inj hcs
        exact absurd hblank (by decide)
    | spaces =>
      rw [hf] at fits
      cases fits with
      | spaces hcomment =>
        -- The other scanner passes the comment.
        obtain ⟨v, rfl, hlexeme⟩ := hcomment.exists_lexeme
        have hnext' := next_cons hrest' (by decide) (by decide)
        rw [List.append_eq, hlexeme] at hnext'
        have hpast : (x.past (blanked ('/' :: v)).length).Near X
            (x'.past (v.length + 1)) := by
          refine h.near.past ?_ ?_
          · rw [hrest, hrest', List.take_left]
            exact (congrArg byteLength List.take_left).trans hlength
          · rw [hrest, hrest', List.take_left, List.drop_left]
            exact (congrArg (Patched X _ _) List.drop_left).mpr hrests
        refine ⟨_, _, found, x'.next.1 :: found', h.trivia hpast rfl
          (hwhite hrest isBlank_blanked _) ?_ rfl rfl rfl ?_ (hoffset _)
          (hfound _), ?_, ?_⟩
        · rw [hnext']
          exact List.forall_mem_cons.2 ⟨rfl, h.clear⟩
        · rw [hnext']
          rfl
        · rw [past_rest, hrest, List.drop_left, List.length_append]
          omega
        · rw [nextSignificantFrom_of_extra (by rw [hnext']; rfl), hnext']
          rfl

/-- **A line break is passed**, in the other text another one or a space. -/
theorem lineBreak (h : Along p X other a x x' found found')
    (hrest : x.rest = '\n' :: cs) : GoesOn p X other a x x' found' := by
  have hleads :=
    (nextSignificantFrom_lineBreak hrest found).symm.trans h.leads
  have hoffset : x.pastBreak.position.offset = x.position.offset + 1 := by
    show (x.past 1).position.offset = _
    rw [past_offset, hrest]
    rfl
  have hshort : x.pastBreak.rest.length < x.rest.length := by
    show (x.past 1).rest.length < _
    rw [past_rest, hrest]
    exact Nat.lt_succ_self _
  obtain ⟨before, hat⟩ := h.near.at_
  have hat₁ : x.pastBreak.At (before ++ x.rest.take 1) :=
    ⟨(hat.past 1).source_eq, (hat.past 1).position_eq⟩
  have hle := offset_le_start hat₁ (x.breaks ++ found)
  have hextras := mem_or_offset_le hat₁ (x.breaks ++ found)
  rw [hleads] at hle hextras
  -- The line break is on the way, so it is no spot if none is.
  have hspot : p → x.position.offset ∉ X.spots := by
    intro hp hmem
    have hpast := h.past hp _ hmem
    omega
  have hbreak : p → x.position.offset ∈ X.breaks := by
    refine fun hp => h.breaks hp _ (Nat.le_refl _) (by omega)
      (fun y hy hkind => ?_)
    rcases hextras y hy with hmem | hstart
    · rcases List.mem_append.1 hmem with hmem | hmem
      · exact absurd (kind_of_mem_breaks hmem) hkind
      · exact .inr (h.found_le y hmem)
    · exact .inl (by omega)
  have hpast : p → ∀ q ∈ X.spots, q < x.pastBreak.position.offset
      ∨ a.token.span.start ≤ q := by
    intro hp q hq
    have hpast := h.past hp q hq
    omega
  have hbreaks : p → ∀ q, x.pastBreak.position.offset ≤ q →
      q < a.token.span.start → (∀ y ∈ a.extras, y.kind ≠ .lineBreak →
        q < y.span.start ∨ y.span.stop ≤ q) → q ∈ X.breaks :=
    fun hp q hle => h.breaks hp q (by omega)
  have hfound : ∀ y ∈ x.breaks ++ found,
      y.span.stop ≤ x.pastBreak.position.offset := by
    intro y hy
    rcases List.mem_append.1 hy with hy | hy
    · rw [hoffset, span_of_mem_breaks hrest hy]
    · have hstop := h.found_le y hy
      omega
  rcases (hrest ▸ h.near.rests).cons with ⟨cs', hrest', hchain, hrests⟩ |
    ⟨w, y, w', z, hcs, hrest', fits, -, hfilling, hrests⟩
  · have hmatters : p → x'.breakMatters cs' = x.breakMatters cs := fun hp =>
      h.near.breakMatters_eq (hchain rfl (hbreak hp) (hspot hp))
        (h.breakEmitted_eq hp)
    have hnear := h.near.past_one hrest hrest' rfl hrests
    refine ⟨x.pastBreak, x'.pastBreak, x.breaks ++ found,
      x'.breaks ++ found', ⟨hnear.give _ _, h.source_eq, hleads, ?_,
        fun hp => ?_, fun hp => ?_, hpast, hbreaks, hfound⟩, hshort,
      nextSignificantFrom_lineBreak hrest' found'⟩
    · exact fun y hy => (List.mem_append.1 hy).elim (x'.breaks_clear y)
        (h.clear y)
    · unfold pastBreak
      rw [hrest, hrest']
      show (_ || x'.breakMatters cs') = (_ || x.breakMatters cs)
      rw [hmatters hp, h.breakEmitted_eq hp]
    · rw [List.any_append, List.any_append, any_breaks, any_breaks, hrest,
        hrest', h.any_eq hp]
      show (x'.breakMatters cs' || _) = (x.breakMatters cs || _)
      rw [hmatters hp]
  · rcases fits.exists_cons with ⟨hf, rfl, rfl⟩ | ⟨-, ⟨v, rfl⟩, -⟩ |
      ⟨-, ⟨v, rfl⟩, -⟩
    · obtain ⟨-, rfl⟩ := List.cons.inj hcs
      have hnot : ¬p := fun hp => hspot hp (hfilling hf)
      exact ⟨x.pastBreak, x'.past 1, x.breaks ++ found, found',
        ⟨(h.near.past_one hrest hrest' rfl hrests).give _ x'.breakEmitted,
          h.source_eq, hleads, h.clear, fun hp => absurd hp hnot,
          fun hp => absurd hp hnot, hpast, hbreaks, hfound⟩, hshort,
        (nextSignificantFrom_congr (next_past_one hrest' rfl) found').symm⟩
    · exact absurd (List.cons.inj hcs).1 (by decide)
    · exact absurd (List.cons.inj hcs).1 (by decide)

/-- **A comment is passed**, in the other text spaces or a comment. -/
theorem comment (h : Along p X other a x x' found found')
    (hrest : x.rest = c :: cs) (hblank : isBlank c = false)
    (hline : c ≠ '\n') (hkind : x.next.1.kind = .comment)
    (hout : x.next.1.Outlasts X other) : GoesOn p X other a x x' found' := by
  have hnext := next_cons hrest hblank hline
  generalize hlexeme : Lexeme.atFront
    (x.previous.any TokenKind.canEndExpression) c cs = lexeme at hnext
  obtain ⟨kind, n, error⟩ := lexeme
  rw [hnext] at hout hkind
  obtain rfl : kind = .comment := hkind
  obtain rfl : error = none := hout.clear
  have hspan : (x.take .comment (n + 1) none).1.span = ⟨x.position.offset,
      x.position.offset + byteLength ((c :: cs).take (n + 1))⟩ := by
    rw [← hrest]
    exact congrArg (Span.mk _) (Position.advanceBy_offset _ _)
  obtain ⟨w', z, hrest', hlength, hbehind, hcases⟩ :=
    (hrest ▸ h.near.rests).exists_comment hlexeme rfl
      (fun q hq => by
        have hwhole := hout.whole q hq
        rw [hspan] at hwhole
        refine hwhole.imp_right (Or.imp_right (Or.imp_right ?_))
        rintro ⟨hstart, hstop, hcomment⟩
        refine ⟨hstart, hstop, fun w' z hw hlength => ?_⟩
        obtain ⟨before, hat'⟩ := h.near.at'
        have hslice : Span.slice ⟨x.position.offset, x.position.offset
            + byteLength ((c :: cs).take (n + 1))⟩ other = w' := by
          rw [← h.source_eq, hat'.source_eq, hw, ← hlength,
            ← h.near.offset_eq, hat'.position_eq]
          exact Span.slice_append before w' z
        rwa [hslice] at hcomment)
      (fun hf hhead q hq => by
        have hstarts := startsWith_of_comment hlexeme hhead
        rw [← hrest] at hstarts
        have hne := hout.line hf hstarts q hq
        rwa [hspan] at hne)
  have hnear : (x.past (n + 1)).Near X (x'.past w'.length) := by
    refine h.near.past ?_ ?_
    · rw [hrest, hrest', List.take_left, hlength]
    · rw [hrest, hrest', List.drop_left]
      exact hbehind
  have hextra : x.next.1.kind.isExtra = true := by rw [hnext]; rfl
  have hleads := nextSignificantFrom_of_extra hextra found
  rw [hnext] at hleads
  have hoffset : x.position.offset ≤ (x.past (n + 1)).position.offset := by
    rw [past_offset]
    exact Nat.le_add_right _ _
  have hfound : ∀ y ∈ (x.take .comment (n + 1) none).1 :: found,
      y.span.stop ≤ (x.past (n + 1)).position.offset := by
    refine List.forall_mem_cons.2 ⟨?_, fun y hy =>
      Nat.le_trans (h.found_le y hy) hoffset⟩
    rw [hspan, past_offset, hrest]
  have hshort : (x.past (n + 1)).rest.length < x.rest.length := by
    rw [past_rest, hrest, List.drop_succ_cons, List.length_drop,
      List.length_cons]
    omega
  rcases hcases with hblanked | hcomment
  · have hpast := next_past_blanks (hblanked ▸ isBlank_blanked) hrest'
    exact ⟨_, _, _, found', h.trivia hnear rfl hleads h.clear rfl rfl rfl rfl
      hoffset hfound, hshort, (nextSignificantFrom_congr hpast found').symm⟩
  · obtain ⟨v, rfl, hlexeme'⟩ := hcomment.exists_lexeme
    have hnext' := next_cons hrest' (by decide) (by decide)
    rw [List.append_eq, hlexeme'] at hnext'
    have hextra' : x'.next.1.kind.isExtra = true := by rw [hnext']; rfl
    refine ⟨_, _, _, x'.next.1 :: found', h.trivia hnear rfl hleads ?_ rfl rfl
      rfl ?_ hoffset hfound, hshort, ?_⟩
    · rw [hnext']
      exact List.forall_mem_cons.2 ⟨rfl, h.clear⟩
    · rw [hnext']
      rfl
    · rw [nextSignificantFrom_of_extra hextra', hnext']
      rfl

/-- **The texts end.** -/
theorem near_of_end (h : Along p X other a x x' found found')
    (hrest : x.rest = []) :
    a.Near p X (x'.nextSignificantFrom found') := by
  have hrest' := (hrest ▸ h.near.rests).nil_eq
  have hnext := next_of_rest hrest
  have hnext' := next_of_rest hrest'
  have ha := h.leads
  rw [nextSignificantFrom_of_not_extra (by rw [hnext]; rfl), hnext] at ha
  rw [nextSignificantFrom_of_not_extra (by rw [hnext']; rfl), hnext', ← ha]
  exact {
    token := take_agrees h.near.offset_eq rfl _ _
    scanner := h.near
    breakEmitted_eq := fun heof => Bool.noConfusion heof
    clear := rfl
    clear_extras := fun y hy => h.clear y (List.mem_reverse.1 hy)
    any_eq := fun hp => by
      rw [List.any_reverse, List.any_reverse, h.any_eq hp] }

/-- **A token of the grammar is found.** -/
theorem near_of_token (h : Along p X other a x x' found found')
    (hrest : x.rest = c :: cs) (hblank : isBlank c = false)
    (hline : c ≠ '\n') (hextra : x.next.1.kind.isExtra = false)
    (htoken : a.token.Spares X) :
    a.Near p X (x'.nextSignificantFrom found') := by
  have ha := h.leads
  rw [nextSignificantFrom_of_not_extra hextra] at ha
  subst ha
  have hkind : x.next.1.kind ≠ .comment := by
    intro hk
    rw [hk] at hextra
    exact Bool.noConfusion hextra
  obtain ⟨hagrees, hnear, hbreak, hbreak'⟩ :=
    h.near.token hrest hblank hline hkind htoken
  rw [nextSignificantFrom_of_not_extra (by rwa [hagrees])]
  exact {
    token := hagrees
    scanner := hnear
    breakEmitted_eq := fun _ => by
      show x'.next.2.breakEmitted = x.next.2.breakEmitted
      rw [hbreak, hbreak', hextra]
      rfl
    clear := by
      rw [hagrees]
      exact htoken.clear
    clear_extras := fun y hy => h.clear y (List.mem_reverse.1 hy)
    any_eq := fun hp => by
      rw [List.any_reverse, List.any_reverse, h.any_eq hp] }

/-- **The way leads to the same token.** -/
theorem near_advance (h : Along p X other a x x' found found')
    (hextras : ∀ y ∈ a.extras, y.kind ≠ .lineBreak → y.Outlasts X other)
    (htoken : a.token.Spares X) :
    a.Near p X (x'.nextSignificantFrom found') := by
  -- Along the text that is left, whichever of these is in front of it.
  induction hn : x.rest.length using Nat.strongRecOn
    generalizing x x' found found' with
  | ind n ih =>
    have hgoes : GoesOn p X other a x x' found' →
        a.Near p X (x'.nextSignificantFrom found') := by
      rintro ⟨y, y', f, f', hpast, hshort, heq⟩
      rw [heq]
      exact ih _ (hn ▸ hshort) hpast rfl
    cases hrest : x.rest with
    | nil => exact h.near_of_end hrest
    | cons c cs =>
      cases hblank : isBlank c with
      | true => exact hgoes (h.blank hrest hblank)
      | false =>
        by_cases hline : c = '\n'
        · subst hline
          exact hgoes (h.lineBreak hrest)
        obtain ⟨heof, hne⟩ := next_kind_ne hrest hblank hline
        cases hextra : x.next.1.kind.isExtra with
        | true =>
          have hkind : x.next.1.kind = .comment := by
            cases hk : x.next.1.kind <;> simp_all [TokenKind.isExtra]
          have hmem : x.next.1 ∈ a.extras := by
            rw [← h.leads, nextSignificantFrom_of_extra hextra]
            exact mem_extras List.mem_cons_self
          exact hgoes
            (h.comment hrest hblank hline hkind (hextras _ hmem hne))
        | false => exact h.near_of_token hrest hblank hline hextra htoken

end Along

namespace Near

/-- **The next token of the grammar** is the same in both texts. -/
theorem nextSignificant (h : x.Near X x')
    (hextras : ∀ y ∈ x.nextSignificant.extras,
      y.kind ≠ .lineBreak → y.Outlasts X x'.source)
    (htoken : x.nextSignificant.token.Spares X)
    (hbreaks : ∀ q, x.position.offset ≤ q →
      q < x.nextSignificant.token.span.start →
      (∀ y ∈ x.nextSignificant.extras, y.kind ≠ .lineBreak →
        q < y.span.start ∨ y.span.stop ≤ q) → q ∈ X.breaks)
    (hbreak : x'.breakEmitted = x.breakEmitted) :
    x.nextSignificant.Near (∀ q ∈ X.spots, q < x.position.offset
      ∨ x.nextSignificant.token.span.start ≤ q) X x'.nextSignificant := by
  refine Along.near_advance ⟨h, rfl, rfl, List.forall_mem_nil _,
    fun _ => hbreak, fun _ => rfl, id, fun _ => hbreaks,
    List.forall_mem_nil _⟩ hextras htoken

/-- Behind the last token of the grammar is the end in both texts. -/
theorem nextSignificant_of_end (h : x.Near X x') (hrest : x.rest = []) :
    x.nextSignificant.Near False X x'.nextSignificant :=
  Along.near_of_end ⟨h, rfl, rfl, List.forall_mem_nil _, False.elim,
    False.elim, False.elim, False.elim, List.forall_mem_nil _⟩ hrest

/-- **A token is read again as a regular expression** in both texts, if no
patch lies in it then. -/
theorem rescanRegex {before before' text text' behind behind' : List Char}
    {t t' : Token} (h : x.Near X x')
    (hpatched : Patched X 0 x.source x'.source)
    (hsplit : x.source = before ++ (text ++ behind)) (hne : text ≠ [])
    (hsplit' : x'.source = before' ++ (text' ++ behind'))
    (ht : t.Spells before text) (ht' : t'.Spells before' text')
    (hagrees : t.Agrees t') (hspares : (x.rescanRegex t).1.Spares X) :
    (x.rescanRegex t).1.Agrees (x'.rescanRegex t').1
      ∧ (x.rescanRegex t).2.Near X (x'.rescanRegex t').2
      ∧ (x'.rescanRegex t').2.breakEmitted
        = (x.rescanRegex t).2.breakEmitted := by
  have hspan : t'.span = t.span := by rw [hagrees]
  have hoffset : byteLength before' = byteLength before := by
    rw [ht.span_eq, ht'.span_eq] at hspan
    exact congrArg Span.start hspan
  obtain ⟨c, cs, hcs⟩ := List.exists_cons_of_ne_nil
    (List.append_ne_nil_of_left_ne_nil hne behind)
  rw [hcs] at hsplit
  have hcut : splitAtByte? x.source t.span.start = some (before, c :: cs) :=
    splitAtByte?_eq_some_iff.2 ⟨hsplit, by rw [ht.span_eq]⟩
  have hkind : (Lexeme.regex cs).kind = .regex := rfl
  generalize hlexeme : Lexeme.regex cs = lexeme at hkind
  obtain ⟨kind, n, error⟩ := lexeme
  obtain rfl : kind = .regex := hkind
  have hscan := rescanRegex_of_split hcut hlexeme
  rw [hscan] at hspares ⊢
  obtain rfl : error = none := hspares.clear
  have hstart : t.position.offset = byteLength before := by
    rw [ht.position_eq]
    rfl
  have hstop : byteLength before + byteLength ((c :: cs).take (n + 1))
      = (({ x with position := t.position, rest := c :: cs } : Scanner).take
        .regex (n + 1) none).1.span.stop := by
    rw [← hstart]
    exact (Position.advanceBy_offset _ _).symm
  -- The other text is cut where the token begins.
  obtain ⟨front, r', hfront, hlength, hrests⟩ :=
    hpatched.exists_cut (n := before.length)
      (by rw [hsplit, List.length_append]; exact Nat.le_add_right _ _)
      (fun p hp => by
        rw [hsplit, List.take_left, Nat.zero_add]
        have hapart := hspares.apart p hp
        rw [← hstop] at hapart
        refine hapart.symm.imp (fun hle => ?_) (fun hle => ?_)
        · rw [← hstart]
          exact hle
        · omega)
  rw [hsplit, List.take_left] at hlength
  rw [hsplit, List.drop_left, Nat.zero_add, hlength] at hrests
  have hcut' : splitAtByte? x'.source t'.span.start = some (front, r') :=
    splitAtByte?_eq_some_iff.2
      ⟨hfront, by rw [hspan, ht.span_eq]; exact hlength⟩
  obtain rfl : before' = front := by
    have hsame := splitAtByte?_eq_some_iff.2
      ⟨hsplit', (congrArg Span.start ht'.span_eq).symm⟩
    exact congrArg Prod.fst (Option.some.inj (hsame.symm.trans hcut'))
  have hextent := regexExtent_le false cs 0
  rw [show (regexExtent false cs 0).1 = n from congrArg Lexeme.extent hlexeme,
    Nat.zero_add] at hextent
  obtain ⟨p, y, z, hp, rfl, hlen, hbehind⟩ := hrests.exists_piece
    (n := n + 1) (Nat.succ_le_succ hextent) (fun q hq hpos hle => by
      rw [hstop]
      refine (hspares.apart q hq).resolve_right (fun hbefore => ?_)
      have hbefore : q.stop ≤ byteLength before := hstart ▸ hbefore
      omega)
  obtain ⟨d, v, rfl⟩ := List.exists_cons_of_ne_nil
    (show p ≠ [] from List.ne_nil_of_length_eq_add_one hlen)
  obtain ⟨rfl, rfl⟩ := List.cons.inj hp
  obtain rfl : v.length = n := Nat.succ.inj hlen
  rw [rescanRegex_of_split hcut'
    (Lexeme.regex_follow hbehind.mayFollow hlexeme)]
  have hback : Near X { x with position := t.position, rest := c :: (v ++ y) }
      { x' with position := t'.position, rest := c :: (v ++ z) } := by
    refine ⟨⟨before, hsplit, ht.position_eq⟩,
      ⟨before', hfront, ht'.position_eq⟩, ?_, h.previous_eq, ?_⟩
    · rw [ht.position_eq, ht'.position_eq]
      exact hlength
    · rw [hstart]
      exact hrests
  obtain ⟨htoken, hnear⟩ := hback.take .regex (p := c :: v) rfl rfl (by
    show Patched _ (t.position.offset + _) _ _
    rw [hstart]
    exact hbehind)
  exact ⟨htoken, ⟨hnear.at_.imp (fun _ hat => ⟨hat.source_eq,
    hat.position_eq⟩), hnear.at'.imp (fun _ hat => ⟨hat.source_eq,
    hat.position_eq⟩), hnear.offset_eq, rfl, hnear.rests⟩, rfl⟩

end Near

end Scanner

end ScriptTree
