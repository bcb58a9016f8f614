import ScriptTree.Proofs.Token.Passing
import ScriptTree.Proofs.Token.Respacing

/-!
# A scanner takes a step

What a scanner does next is decided by the character in front of it. It
passes a blank, and with it nothing changes (`Scanner.next_past_one`); it
passes a line break and may give it out (`Scanner.pastBreak`); and at any
other character it finds a lexeme (`Scanner.next_cons`). The way to the next
token of the grammar is made of such steps.

Two scanners in different texts take the same step if the same stands in
front of them. What they find then differs in its line and column at most
(`Token.Agrees`).
-/

namespace ScriptTree

/-- **The same token**, whatever its line and column. -/
def Token.Agrees (t t' : Token) : Prop :=
  t' = { t with position := t'.position }

namespace Scanner

variable {s s' x : Scanner} {before : List Char} {c : Char} {cs : List Char}
  {found : List Token} {n : Nat}

/-! ## Chains behind a line break -/

theorem continuesChain_cons_white {c : Char} (hc : isWhiteSpace c = true)
    (cs : List Char) : continuesChain (c :: cs) = continuesChain cs := by
  unfold continuesChain trimStart
  rw [List.dropWhile_cons_of_pos hc]

/-- Behind white space, a chain is continued by a dot that is not the point
of a number. -/
theorem continuesChain_cons {c : Char} (hc : isWhiteSpace c = false)
    (cs : List Char) : continuesChain (c :: cs) = true
      ↔ c = '.' ∧ ∀ d ∈ cs.head?, d.isDigit = false := by
  have htrim : trimStart (c :: cs) = c :: cs :=
    List.dropWhile_cons_of_neg (by simp [hc])
  unfold continuesChain
  rw [htrim]
  split
  · rename_i d ds heq
    obtain ⟨rfl, rfl⟩ := List.cons.inj heq
    simp
  · rename_i heq
    obtain ⟨rfl, rfl⟩ := List.cons.inj heq
    simp
  · rename_i hdot hend
    refine iff_of_false Bool.false_ne_true (fun h => ?_)
    cases cs with
    | nil => exact hend (by rw [h.1])
    | cons d ds => exact hdot d ds (by rw [h.1])

/-! ## Going on a little -/

theorem At.past (h : s.At before) (n : Nat) :
    (s.past n).At (before ++ s.rest.take n) := take_at h .eof n none

theorem past_offset (s : Scanner) (n : Nat) :
    (s.past n).position.offset
      = s.position.offset + byteLength (s.rest.take n) := by
  simp [past]

theorem take_agrees (hoffset : s'.position.offset = s.position.offset)
    {n : Nat} (htext : s'.rest.take n = s.rest.take n) (kind : TokenKind)
    (error : Option LexError) :
    (s.take kind n error).1.Agrees (s'.take kind n error).1 := by
  simp only [Token.Agrees, take, Position.advanceBy_offset, hoffset, htext]

/-- What is passed over may be passed over before. -/
theorem next_past_one (hrest : s.rest = c :: cs)
    (h : (isBlank c || (c = '\n' && !s.breakMatters cs)) = true) :
    (s.past 1).next = s.next := congrArg read (settle_past_one hrest h)

/-- So may any number of blanks. -/
theorem next_past_blanks {w z : List Char}
    (hw : ∀ c ∈ w, isBlank c = true) (hrest : s.rest = w ++ z) :
    (s.past w.length).next = s.next := by
  induction w generalizing s with
  | nil => rfl
  | cons c w ih =>
    obtain ⟨hc, hw⟩ := List.forall_mem_cons.1 hw
    have hrest' : (s.past 1).rest = w ++ z := by simp [hrest]
    rw [List.length_cons, Nat.add_comm, ← past_past, ih hw hrest']
    exact next_past_one hrest (by rw [hc, Bool.true_or])

theorem remember_position (s : Scanner) (kind : TokenKind) :
    (s.remember kind).position = s.position := by
  unfold remember
  split <;> rfl

theorem remember_breakEmitted_congr
    (h : s'.breakEmitted = s.breakEmitted) (kind : TokenKind) :
    (s'.remember kind).breakEmitted = (s.remember kind).breakEmitted := by
  unfold remember
  split
  · exact h
  · rfl

/-! ## On the way to the next token -/

theorem nextSignificantFrom_of_extra (h : s.next.1.kind.isExtra = true)
    (found : List Token) : s.nextSignificantFrom found
      = s.next.2.nextSignificantFrom (s.next.1 :: found) := by
  rw [nextSignificantFrom]
  exact if_pos h

theorem nextSignificantFrom_of_not_extra
    (h : s.next.1.kind.isExtra = false) (found : List Token) :
    s.nextSignificantFrom found
      = ⟨found.reverse, s.next.1, s.next.2⟩ := by
  rw [nextSignificantFrom]
  exact if_neg (by rw [h]; exact Bool.false_ne_true)

theorem nextSignificantFrom_congr (h : s'.next = s.next)
    (found : List Token) :
    s'.nextSignificantFrom found = s.nextSignificantFrom found := by
  cases hextra : s.next.1.kind.isExtra with
  | true =>
    rw [nextSignificantFrom_of_extra hextra,
      nextSignificantFrom_of_extra (by rwa [h]), h]
  | false =>
    rw [nextSignificantFrom_of_not_extra hextra,
      nextSignificantFrom_of_not_extra (by rwa [h]), h]

/-- What has been found is passed on. -/
theorem mem_extras {y : Token} (hy : y ∈ found) :
    y ∈ (x.nextSignificantFrom found).extras := by
  fun_induction nextSignificantFrom x found with
  | case1 x found step hextra ih => exact ih (List.mem_cons_of_mem _ hy)
  | case2 x found step hextra => exact List.mem_reverse.2 hy

/-- The next token does not begin before the scanner's place. -/
theorem offset_le_start {before : List Char} (h : x.At before)
    (found : List Token) : x.position.offset
      ≤ (x.nextSignificantFrom found).token.span.start := by
  obtain ⟨_, front, text, _, hfinds⟩ := x.nextSignificantFrom_finds found h
  rw [hfinds.spells.span_eq, h.position_eq]
  exact hfinds.le

/-- What is passed begins behind the scanner's place, or has been found
before. -/
theorem mem_or_offset_le {before : List Char} (h : x.At before)
    (found : List Token) : ∀ y ∈ (x.nextSignificantFrom found).extras,
      y ∈ found ∨ x.position.offset ≤ y.span.start := by
  obtain ⟨extras, _, _, hextras, hfinds⟩ :=
    x.nextSignificantFrom_finds found h
  rw [hextras]
  intro y hy
  refine (List.mem_append.1 hy).imp List.mem_reverse.1 (fun hy => ?_)
  obtain ⟨b, e, hb, _, _, hspan, _⟩ := hfinds.row.exists_of_mem hy
  rw [hspan, h.position_eq]
  exact hb

/-- Where the text ends the next token of the grammar is its end. -/
theorem isEof_nextSignificant (hrest : x.rest = []) :
    x.nextSignificant.token.isEof = true := by
  have hnext := next_of_rest hrest
  unfold Scanner.nextSignificant
  rw [nextSignificantFrom_of_not_extra (by rw [hnext]; rfl), hnext]
  rfl

/-! ## Past a line break -/

theorem settle_of_lineBreak (hrest : s.rest = '\n' :: cs)
    (hmatters : s.breakMatters cs = true) : s.settle = s := by
  refine settle_eq_self (fun c hc => ?_)
  rw [hrest] at hc ⊢
  obtain rfl : '\n' = c := Option.some.inj hc
  exact ⟨rfl, fun _ => hmatters⟩

/-- A line break that matters is the next token. -/
theorem next_of_lineBreak (hrest : s.rest = '\n' :: cs)
    (hmatters : s.breakMatters cs = true) :
    s.next = ((s.take .lineBreak 1 none).1,
      { s.past 1 with breakEmitted := true }) := by
  unfold next read
  rw [settle_of_lineBreak hrest hmatters]
  split
  · simp_all
  · rfl
  · simp_all

/-- The scanner past a line break, which it may have given out. -/
def pastBreak (x : Scanner) : Scanner :=
  { x.past 1 with
    breakEmitted := x.breakEmitted || x.breakMatters x.rest.tail }

/-- The line break at a scanner's place, if it is given out. -/
def breaks (x : Scanner) : List Token :=
  if x.breakMatters x.rest.tail then [(x.take .lineBreak 1 none).1] else []

/-- **A line break is passed**, whether it is given out or not. -/
theorem nextSignificantFrom_lineBreak (hrest : x.rest = '\n' :: cs)
    (found : List Token) : x.nextSignificantFrom found
      = x.pastBreak.nextSignificantFrom (x.breaks ++ found) := by
  have htail : x.rest.tail = cs := by rw [hrest]; rfl
  unfold pastBreak breaks
  rw [htail]
  cases hmatters : x.breakMatters cs with
  | true =>
    have hnext := next_of_lineBreak hrest hmatters
    have hextra : x.next.1.kind.isExtra = true := by rw [hnext]; rfl
    rw [nextSignificantFrom_of_extra hextra, hnext, Bool.or_true]
    rfl
  | false =>
    rw [← nextSignificantFrom_congr (next_past_one hrest
      (by rw [hmatters]; rfl)), Bool.or_false]
    rfl

theorem breaks_clear (x : Scanner) : ∀ y ∈ x.breaks, y.error = none := by
  unfold breaks
  split
  · exact List.forall_mem_singleton.2 rfl
  · exact fun _ h => nomatch h

theorem kind_of_mem_breaks {y : Token} (h : y ∈ x.breaks) :
    y.kind = .lineBreak := by
  unfold breaks at h
  split at h
  · rw [List.mem_singleton.1 h]
    rfl
  · exact absurd h List.not_mem_nil

theorem span_of_mem_breaks {y : Token} (hrest : x.rest = '\n' :: cs)
    (h : y ∈ x.breaks) : y.span.stop = x.position.offset + 1 := by
  unfold breaks at h
  split at h
  · rw [List.mem_singleton.1 h]
    show (x.position.advanceBy (x.rest.take 1)).offset = _
    rw [Position.advanceBy_offset, hrest]
    rfl
  · exact absurd h List.not_mem_nil

theorem any_breaks (x : Scanner) :
    x.breaks.any (·.kind = .lineBreak) = x.breakMatters x.rest.tail := by
  unfold breaks
  cases x.breakMatters x.rest.tail <;> rfl

/-! ## At a lexeme -/

/-- **The lexeme at a scanner's place.** -/
theorem next_cons (hrest : x.rest = c :: cs) (hblank : isBlank c = false)
    (hline : c ≠ '\n') :
    let lexeme :=
      Lexeme.atFront (x.previous.any TokenKind.canEndExpression) c cs
    x.next = ((x.take lexeme.kind (lexeme.extent + 1) lexeme.error).1,
      (x.past (lexeme.extent + 1)).remember lexeme.kind) := by
  have hself : x.settle = x := settle_eq_self (fun d hd => by
    rw [hrest] at hd
    obtain rfl : c = d := Option.some.inj hd
    exact ⟨hblank, fun heq => absurd heq hline⟩)
  exact (congrArg read hself).trans (read_cons hrest hline)

/-- A lexeme is neither the end of the text nor a line break. -/
theorem next_kind_ne (hrest : x.rest = c :: cs) (hblank : isBlank c = false)
    (hline : c ≠ '\n') :
    x.next.1.isEof = false ∧ x.next.1.kind ≠ .lineBreak := by
  have hne := Lexeme.atFront_kind_ne
    (x.previous.any TokenKind.canEndExpression) c cs
  rw [next_cons hrest hblank hline]
  exact ⟨decide_eq_false hne.1, hne.2⟩

/-- A comment that goes on to the end of its line says so. -/
theorem startsWith_of_comment {slashDivides : Bool} {n : Nat}
    (hlexeme : Lexeme.atFront slashDivides c cs = ⟨.comment, n, none⟩)
    (hhead : cs.head? = some '/') :
    (String.ofList ((c :: cs).take (n + 1))).startsWith "//" = true := by
  obtain rfl : c = '/' := Lexeme.eq_slash_of_comment (by rw [hlexeme])
  obtain ⟨ds, rfl⟩ := List.head?_eq_some_iff.1 hhead
  obtain rfl : 1 + lineExtent ds = n := congrArg Lexeme.extent hlexeme
  refine String.startsWith_string_iff.2 ⟨ds.take (lineExtent ds), ?_⟩
  simp only [String.toList_ofList, Nat.add_comm 1]
  rfl

/-- **A token that is read again** is cut off where it began. -/
theorem rescanRegex_of_split {t : Token} {before : List Char} {n : Nat}
    {error : Option LexError}
    (hcut : splitAtByte? x.source t.span.start = some (before, c :: cs))
    (hlexeme : Lexeme.regex cs = ⟨.regex, n, error⟩) :
    let y : Scanner := { x with position := t.position, rest := c :: cs }
    x.rescanRegex t = ((y.take .regex (n + 1) error).1,
      { y.past (n + 1) with previous := some .regex, breakEmitted := false })
    := by
  unfold rescanRegex
  rw [hcut]
  simp only [List.drop_one, List.tail_cons, hlexeme]
  rfl

/-- **A slash that is read again** without fault becomes longer. -/
theorem rescanRegex_lt_stop {t : Token} {before text behind : List Char}
    (hsplit : x.source = before ++ (text ++ behind))
    (ht : t.Spells before text) (hslash : text = ['/'] ∨ text = ['/', '='])
    (herror : (x.rescanRegex t).1.error = none) :
    t.span.stop < (x.rescanRegex t).1.span.stop := by
  obtain ⟨cs, rfl⟩ : ∃ cs, text = '/' :: cs := by
    rcases hslash with rfl | rfl <;> exact ⟨_, rfl⟩
  have hcut : splitAtByte? x.source t.span.start
      = some (before, '/' :: (cs ++ behind)) :=
    splitAtByte?_eq_some_iff.2 ⟨hsplit, by rw [ht.span_eq]⟩
  generalize hextent : regexExtent false (cs ++ behind) 0 = extent
  obtain ⟨n, error⟩ := extent
  have hlexeme : Lexeme.regex (cs ++ behind) = ⟨.regex, n, error⟩ := by
    rw [Lexeme.regex, hextent]
  rw [rescanRegex_of_split hcut hlexeme] at herror ⊢
  obtain rfl : error = none := herror
  have hle := regexExtent_le false (cs ++ behind) 0
  rw [hextent, List.length_append] at hle
  -- The closing slash is behind the mark.
  have hlt : cs.length < n := by
    rcases hslash with hcs | hcs <;> obtain ⟨-, rfl⟩ := List.cons.inj hcs
    · exact lt_of_regexExtent hextent
    · exact lt_of_regexExtent (n := 1) hextent
  obtain ⟨k, rfl⟩ := Nat.exists_eq_add_of_lt hlt
  have hstop : t.span.stop = byteLength before + byteLength ('/' :: cs) := by
    rw [ht.span_eq]
  show t.span.stop < (t.position.advanceBy _).offset
  rw [Position.advanceBy_offset, ht.position_eq, hstop,
    List.take_succ_cons, Nat.add_assoc, List.take_length_add_append,
    ← List.cons_append, byteLength_append, ← Nat.add_assoc]
  refine Nat.lt_add_of_pos_right (byteLength_pos (fun hnil => ?_))
  have hlength := congrArg List.length hnil
  rw [List.length_take, List.length_nil] at hlength
  omega

end Scanner

end ScriptTree
