import ScriptTree.Proofs.Token.Respacing

/-!
# What the tokens before decide

A slash divides or begins a regular expression, and a line break ends a
statement or is a blank. Which it is, the text at the place does not say.
The scanner asks two of its registers, and they hold what can be read off
the tokens in front: the kind of the last significant one
(`precedingKind?`), and whether a line break has been given out since
(`breakSince`). That a scanner has **seen** some tokens says just that, and
each step sees its token (`Scanner.Saw.next`).

So both questions are answered by the stream itself, for every slash and
for every line break of a text (`tokens_inContext`). For the slashes it is
enough to know where in the stream a token stands. A line break that is
passed over leaves no token behind, and is looked for along the way.
-/

namespace ScriptTree

/-! ## Looking back along a stream -/

/-- **What a token counts as** behind another: a reserved word behind a dot
is the name of a property. -/
def Token.kindBehind (t : Token) (before? : Option Token) : TokenKind :=
  match t.kind with
  | .keyword _ =>
    if before?.any (·.isPunctuator .dot) then .identifier else t.kind
  | kind => kind

/-- **The kind of the last significant token** in front, if there is one,
as what it counts behind the significant token before it. -/
def precedingKind? (front : List Token) : Option TokenKind :=
  match (front.filter Token.isSignificant).reverse with
  | [] => none
  | t :: before => some (t.kindBehind before.head?)

/-- **Whether a line break is among the tokens** behind the last
significant one. -/
def breakSince (front : List Token) : Bool :=
  (front.reverse.takeWhile (!·.isSignificant)).any (·.kind = .lineBreak)

section Concat

variable {front : List Token} {t : Token}

theorem Token.kindBehind_eq_dot_iff {before? : Option Token} :
    t.kindBehind before? = .punctuator .dot
      ↔ t.isPunctuator .dot = true := by
  unfold kindBehind isPunctuator
  cases t.kind
  case keyword k => dsimp only; split <;> simp
  all_goals simp

/-- A dot in front is one that is the last significant token. -/
theorem precedingKind?_eq_dot_iff (front : List Token) :
    precedingKind? front = some (.punctuator .dot)
      ↔ (front.filter Token.isSignificant).reverse.head?.any
          (·.isPunctuator .dot) = true := by
  unfold precedingKind?
  cases (front.filter Token.isSignificant).reverse with
  | nil => simp
  | cons t before => simp [Token.kindBehind_eq_dot_iff]

/-- Behind a token that is not significant, the last significant one is
the same. -/
theorem precedingKind?_concat_of_not (h : t.isSignificant = false) :
    precedingKind? (front ++ [t]) = precedingKind? front := by
  simp [precedingKind?, h]

/-- **Behind a significant token** it is that token. -/
theorem precedingKind?_concat (h : t.isSignificant = true) :
    precedingKind? (front ++ [t]) = some (match t.kind with
      | .keyword _ =>
        if precedingKind? front = some (.punctuator .dot) then .identifier
        else t.kind
      | kind => kind) := by
  have hlast : precedingKind? (front ++ [t]) = some (t.kindBehind
      (front.filter Token.isSignificant).reverse.head?) := by
    simp [precedingKind?, h]
  rw [hlast, Token.kindBehind]
  simp only [precedingKind?_eq_dot_iff]

/-- **A line break has been given out since** the last significant token if
it has just been, or before. -/
theorem breakSince_concat : breakSince (front ++ [t])
    = (!t.isSignificant && (t.kind = .lineBreak || breakSince front)) := by
  unfold breakSince
  rw [List.reverse_concat]
  cases h : t.isSignificant
  · rw [List.takeWhile_cons_of_pos (by simp [h])]
    rfl
  · rw [List.takeWhile_cons_of_neg (by simp [h])]
    rfl

end Concat

variable {s : Scanner} {before : List Char} {front : List Token}

namespace Scanner

/-! ## What a scanner has seen -/

/-- **A scanner that has seen some tokens**: it remembers of them what the
rules look back for. -/
structure Saw (s : Scanner) (front : List Token) : Prop where
  /-- The last of them that is significant. -/
  previous_eq : s.previous = precedingKind? front
  /-- Whether a line break was among those behind it. -/
  breakEmitted_eq : s.breakEmitted = breakSince front

theorem ofSource_saw (source : List Char) : (ofSource source).Saw [] :=
  ⟨rfl, rfl⟩

/-- **A step sees its token.** -/
theorem Saw.next (h : s.Saw front) (heof : s.next.1.isEof = false) :
    s.next.2.Saw (front ++ [s.next.1]) := by
  have hsig : s.next.1.isSignificant = !s.next.1.kind.isExtra := by
    simp [Token.isSignificant, heof]
  refine ⟨?_, ?_⟩
  · rw [next_previous heof]
    unfold remember
    cases hextra : s.next.1.kind.isExtra with
    | true =>
      rw [precedingKind?_concat_of_not (by simp [hsig, hextra])]
      exact h.previous_eq
    | false =>
      rw [precedingKind?_concat (by simp [hsig, hextra]), ← h.previous_eq]
      cases s.next.1.kind <;> rfl
  · rw [next_breakEmitted heof, breakSince_concat, hsig, Bool.not_not,
      ← h.breakEmitted_eq]
    cases hkind : s.next.1.kind <;> simp [TokenKind.isExtra]

/-- **In front of each token of a stream** stands a scanner of the same
text with what is left of the stream, and that has seen the tokens
before. -/
theorem exists_stream_eq (hat : s.At before) (hsaw : s.Saw front)
    {mid back : List Token} {t : Token}
    (hstream : s.stream = mid ++ t :: back) :
    ∃ (u : Scanner) (place : List Char), u.At place ∧ u.source = s.source
      ∧ u.Saw (front ++ mid) ∧ u.stream = t :: back := by
  induction mid generalizing s before front with
  | nil => exact ⟨s, before, hat, rfl, by rwa [List.append_nil], hstream⟩
  | cons m mid ih =>
    cases heof : s.next.1.isEof with
    | true =>
      rw [stream_of_eof heof] at hstream
      simp at hstream
    | false =>
      rw [stream_of_not_eof heof, List.cons_append] at hstream
      obtain ⟨rfl, hback⟩ := List.cons.inj hstream
      obtain ⟨gap, text, hread⟩ := next_reads hat
      obtain ⟨u, place, hu, hsource, hseen, ht⟩ :=
        ih hread.at_behind (hsaw.next heof) hback
      refine ⟨u, place, hu, hsource.trans hread.source_eq, ?_, ht⟩
      rwa [List.append_assoc] at hseen

/-- The first token of what is left is the next one. -/
theorem next_eq_of_stream {back : List Token} {t : Token}
    (h : s.stream = t :: back) : s.next.1 = t := by
  cases heof : s.next.1.isEof with
  | true =>
    rw [stream_of_eof heof] at h
    exact (List.cons.inj h).1
  | false =>
    rw [stream_of_not_eof heof] at h
    exact (List.cons.inj h).1

/-- That scanner finds the token. -/
theorem exists_next_eq (hat : s.At before) (hsaw : s.Saw front)
    {mid back : List Token} {t : Token}
    (hstream : s.stream = mid ++ t :: back) :
    ∃ (u : Scanner) (place : List Char), u.At place ∧ u.source = s.source
      ∧ u.Saw (front ++ mid) ∧ u.next.1 = t := by
  obtain ⟨u, place, hu, hsource, hseen, ht⟩ :=
    exists_stream_eq hat hsaw hstream
  exact ⟨u, place, hu, hsource, hseen, next_eq_of_stream ht⟩

end Scanner

/-! ## Slashes -/

namespace Lexeme

/-- A slash that does not divide begins a regular expression. -/
theorem noComment_kind_of_not_divides (cs : List Char) :
    (noComment false '/' cs).kind = .regex := rfl

/-- **A slash that divides** is a mark, alone or with the sign of an
assignment. -/
theorem noComment_kind_of_divides (cs : List Char) :
    (noComment true '/' cs).kind = .punctuator .slash
      ∨ (noComment true '/' cs).kind = .punctuator .slashEq := by
  have hone : ('/' :: cs).take 1 = ['/'] := rfl
  cases hmark : Punctuator.longest? ('/' :: cs) with
  | none =>
    -- The slash alone is a mark.
    have hnot := List.find?_eq_none.1 (Option.map_eq_none_iff.1 hmark)
      (['/'], .slash) (by decide)
    simp at hnot
  | some found =>
    obtain ⟨p, n⟩ := found
    obtain ⟨hpos, htake⟩ := Punctuator.take_of_longest? hmark
    have hhead : p.spelling.toList.head? = some '/' := by
      rw [← htake]
      cases n with
      | zero => exact absurd hpos (Nat.lt_irrefl 0)
      | succ n => rfl
    have hkind : (noComment true '/' cs).kind = .punctuator p := by
      unfold noComment
      rw [hmark]
      rfl
    rw [hkind]
    revert hhead
    cases p <;> decide

end Lexeme

namespace Scanner

/-- **The slash a scanner finds** divides if what it has seen may end an
expression, and begins a regular expression if not. -/
theorem Saw.next_slash (h : s.Saw front)
    (hsig : s.next.1.isSignificant = true)
    (hslash : s.next.1.text.toList.head? = some '/') :
    if (precedingKind? front).any TokenKind.canEndExpression then
      s.next.1.isSlash = true
    else s.next.1.kind = .regex := by
  obtain ⟨hextra, heof⟩ : s.next.1.kind.isExtra = false
      ∧ s.next.1.isEof = false := by
    simpa [Token.isSignificant] using hsig
  obtain ⟨c, cs, hrest, -, hline⟩ := exists_settle_rest heof (by
    intro hkind
    simp [hkind, TokenKind.isExtra] at hextra)
  obtain ⟨hnext, -⟩ := next_of_settle_rest hrest hline
  obtain ⟨hkind, htext, -⟩ : s.next.1.kind = _ ∧ s.next.1.text = _ ∧ _ := by
    simpa only [Token.unplaced, Prod.mk.injEq] using hnext
  obtain rfl : c = '/' := by
    simpa [htext] using hslash
  rw [Lexeme.atFront_eq_noComment (Lexeme.not_opens_of_kind_ne (by
    rw [← hkind]
    rintro hcomment
    simp [hcomment, TokenKind.isExtra] at hextra)), h.previous_eq] at hkind
  rw [Token.isSlash_iff, hkind]
  cases (precedingKind? front).any TokenKind.canEndExpression
  · exact Lexeme.noComment_kind_of_not_divides cs
  · exact Lexeme.noComment_kind_of_divides cs

end Scanner

/-! ## Line breaks -/

/-- **What lets a line break be given out** behind some tokens and in front
of a text. -/
structure BreaksBetween (front : List Token) (behind : List Char) : Prop where
  /-- A statement may end with the last significant token. -/
  canEnd : (precedingKind? front).any TokenKind.canEndStatement = true
  /-- No other line break has been given out since. -/
  first : breakSince front = false
  /-- White space aside, the text does not go on with a dot, unless that is
  the point of a number. -/
  not_chain : ∀ cs, trimStart behind = '.' :: cs →
    cs.head?.any Char.isDigit = true

namespace Scanner

theorem continuesChain_eq_false_iff (behind : List Char) :
    continuesChain behind = false ↔ ∀ cs, trimStart behind = '.' :: cs →
      cs.head?.any Char.isDigit = true := by
  unfold continuesChain
  split
  · rename_i h
    simp [h]
  · rename_i h
    simp [h]
  · rename_i hmore hone
    refine iff_of_true rfl (fun cs hcs => ?_)
    cases cs with
    | nil => exact absurd hcs hone
    | cons d cs => exact absurd hcs (hmore d cs)

/-- **A scanner decides by what it has seen.** -/
theorem Saw.breakMatters_iff (h : s.Saw front) (behind : List Char) :
    s.breakMatters behind = true ↔ BreaksBetween front behind := by
  unfold breakMatters
  rw [h.previous_eq, h.breakEmitted_eq, Bool.and_eq_true, Bool.and_eq_true,
    Bool.not_eq_true', Bool.not_eq_true', continuesChain_eq_false_iff]
  exact ⟨fun ⟨⟨h₁, h₂⟩, h₃⟩ => ⟨h₂, h₁, h₃⟩, fun h =>
    ⟨⟨h.first, h.canEnd⟩, h.not_chain⟩⟩

/-- **A line break on the way to the next token** is passed over, and then
it did not matter, or the scanner comes to it only later. If it comes to it
at once, it matters. -/
theorem skipBlanks_lineBreak (matters : List Char → Bool) (p : Position)
    (a b : List Char) :
    (matters b = false
        ∧ (skipBlanks matters p (a ++ '\n' :: b)).2 <:+ b)
      ∨ ∃ w, w <:+ a ∧ (skipBlanks matters p (a ++ '\n' :: b)).2
          = w ++ '\n' :: b
        ∧ (w = [] → matters b = true) := by
  induction a generalizing p with
  | nil =>
    rw [List.nil_append, skipBlanks]
    cases hmatters : matters b with
    | true => exact .inr ⟨[], List.suffix_refl _, rfl, fun _ => rfl⟩
    | false =>
      obtain ⟨gap, -, hb, -⟩ := skipBlanks_eq matters (p.advance '\n') b
      exact .inl ⟨rfl, gap, hb.symm⟩
  | cons c a ih =>
    rw [List.cons_append, skipBlanks]
    split
    · rcases ih (p.advance c) with hpast | ⟨w, hw, h⟩
      · exact .inl hpast
      · exact .inr ⟨w, hw.trans (List.suffix_cons c a), h⟩
    · exact .inr ⟨c :: a, List.suffix_refl _, rfl,
        fun h => absurd h (List.cons_ne_nil c a)⟩

variable {a b : List Char} {n : Nat}

/-- **Where a line break is when the scanner has settled**: behind it, and
then it did not matter, or ahead of it. -/
theorem settle_lineBreak (hrest : s.rest = a ++ '\n' :: b) :
    (s.breakMatters b = false ∧ s.settle.rest <:+ b)
      ∨ ∃ w, w <:+ a ∧ s.settle.rest = w ++ '\n' :: b
        ∧ (w = [] → s.breakMatters b = true) := by
  have h := skipBlanks_lineBreak s.breakMatters s.position a b
  rwa [← hrest] at h

/-- The tokens of a stream lie behind the blanks in front of it. -/
theorem le_start_of_settle {place : List Char} (h : s.settle.At place) :
    ∀ t ∈ s.stream, byteLength place ≤ t.span.start := by
  obtain ⟨text, hread⟩ := read_reads h
  have hstart : s.next.1.span.start = byteLength (place ++ []) :=
    congrArg Span.start hread.spells.span_eq
  rw [List.append_nil] at hstart
  have hfirst := Nat.le_of_eq hstart.symm
  cases heof : s.next.1.isEof with
  | true => simpa [stream_of_eof heof] using hfirst
  | false =>
    rw [stream_of_not_eof heof]
    refine List.forall_mem_cons.2 ⟨hfirst, fun t ht => ?_⟩
    refine Nat.le_trans ?_ (hread.at_behind.tokenStream.le_start t ht)
    simp only [byteLength_append]
    omega

/-- **A line break that is passed over** is no token, and does not
matter. -/
theorem stream_lineBreak_of_passed (hat : s.At before) (hsaw : s.Saw front)
    (hrest : s.rest = a ++ '\n' :: b) (hn : n = byteLength (before ++ a))
    (hnot : s.breakMatters b = false) (hpast : s.settle.rest <:+ b) :
    (∃ t ∈ s.stream, t.kind = .lineBreak ∧ t.span = ⟨n, n + 1⟩)
      ↔ BreaksBetween (front ++ s.stream.filter (·.span.stop ≤ n)) b := by
  obtain ⟨gap, -, hgap, hplace⟩ := settle_at hat
  obtain ⟨y, hy⟩ := hpast
  obtain rfl : gap = a ++ '\n' :: y := by
    refine (List.append_left_inj s.settle.rest).1 ?_
    rw [← hgap, hrest, List.append_assoc, List.cons_append, hy]
  have hlt : ∀ t ∈ s.stream, n < t.span.start := by
    intro t ht
    have hle := le_start_of_settle hplace t ht
    have hpos := Char.utf8Size_pos '\n'
    simp only [byteLength_append, byteLength_cons] at hle hn
    omega
  have hnone : s.stream.filter (·.span.stop ≤ n) = [] := by
    refine List.filter_eq_nil_iff.2 (fun t ht => ?_)
    have h₁ := hlt t ht
    have h₂ := hat.tokenStream.start_le_stop t ht
    simp only [decide_eq_true_eq]
    omega
  rw [hnone, List.append_nil, ← hsaw.breakMatters_iff, hnot]
  refine iff_of_false ?_ Bool.false_ne_true
  rintro ⟨t, ht, -, hspan⟩
  have := hlt t ht
  rw [hspan] at this
  exact Nat.lt_irrefl n this

/-- **A line break that the scanner comes to** is a token, and matters. -/
theorem stream_lineBreak_of_found (hat : s.At before) (hsaw : s.Saw front)
    (hrest : s.rest = a ++ '\n' :: b) (hn : n = byteLength (before ++ a))
    (hmatters : s.breakMatters b = true)
    (hfound : s.settle.rest = '\n' :: b) :
    (∃ t ∈ s.stream, t.kind = .lineBreak ∧ t.span = ⟨n, n + 1⟩)
      ↔ BreaksBetween (front ++ s.stream.filter (·.span.stop ≤ n)) b := by
  obtain ⟨gap, -, hgap, hplace⟩ := settle_at hat
  obtain rfl : gap = a := by
    refine (List.append_left_inj ('\n' :: b)).1 ?_
    rw [← hrest, hgap, hfound]
  have hkind : s.next.1.kind = .lineBreak := by
    unfold next read
    simp only [hfound, take_kind]
  obtain ⟨text, hread⟩ := read_reads hplace
  obtain rfl : text = ['\n'] := hread.of_lineBreak hkind
  have hspan : s.next.1.span = ⟨n, n + 1⟩ := by
    rw [hn, ← List.append_nil (before ++ gap)]
    exact hread.spells.span_eq
  have heof : s.next.1.isEof = false := by simp [Token.isEof, hkind]
  have hnone : s.stream.filter (·.span.stop ≤ n) = [] := by
    rw [stream_of_not_eof heof, List.filter_eq_nil_iff]
    refine List.forall_mem_cons.2 ⟨?_, fun t ht => ?_⟩
    · simp [hspan]
    · have h₁ := hread.at_behind.tokenStream.le_start t ht
      have h₂ := hread.at_behind.tokenStream.start_le_stop t ht
      have h₃ := Char.utf8Size_pos '\n'
      simp only [byteLength_append, byteLength_cons] at h₁ hn
      simp only [decide_eq_true_eq]
      omega
  rw [hnone, List.append_nil, ← hsaw.breakMatters_iff, hmatters]
  refine iff_of_true ⟨s.next.1, ?_, hkind, hspan⟩ rfl
  rw [stream_of_not_eof heof]
  exact List.mem_cons_self

/-- **A token in front of a line break** ends before it, if it does not hold
it. -/
theorem Reads.lineBreak_ahead {t : Token} {s' : Scanner} {text w : List Char}
    (h : s.Reads before [] text t s') (hrest : s.rest = w ++ '\n' :: b)
    (hw : w ≠ []) (hfree : t.kind ≠ .lineBreak →
      ¬(t.span.start ≤ byteLength (before ++ w)
        ∧ byteLength (before ++ w) < t.span.stop)) :
    ∃ w', w = text ++ w' ∧ s'.rest = w' ++ '\n' :: b := by
  have hsplit : w ++ '\n' :: b = text ++ s'.rest := hrest.symm.trans h.rest_eq
  rcases List.append_eq_append_iff.1 hsplit with
    ⟨x, htext, hx⟩ | ⟨x, htext, hx⟩
  · cases x with
    | nil => exact ⟨[], by simp [htext], hx.symm⟩
    | cons d x =>
      obtain ⟨rfl, -⟩ := List.cons.inj hx
      refine absurd ?_ (hfree (fun hkind => hw ?_))
      · have := Char.utf8Size_pos '\n'
        simp only [h.spells.span_eq, htext, byteLength_append,
          byteLength_cons, byteLength_nil]
        omega
      · have hone := h.of_lineBreak hkind
        rw [htext] at hone
        cases w with
        | nil => rfl
        | cons c w => simp at hone
  · exact ⟨x, htext, hx⟩

/-- **The line breaks of a stream**: one that no other token holds is a
token exactly if what the tokens in front of it say lets it be given
out. -/
theorem stream_lineBreak (hat : s.At before) (hsaw : s.Saw front)
    (hrest : s.rest = a ++ '\n' :: b) (hn : n = byteLength (before ++ a))
    (hfree : ∀ t ∈ s.stream, t.kind ≠ .lineBreak →
      ¬(t.span.start ≤ n ∧ n < t.span.stop)) :
    (∃ t ∈ s.stream, t.kind = .lineBreak ∧ t.span = ⟨n, n + 1⟩)
      ↔ BreaksBetween (front ++ s.stream.filter (·.span.stop ≤ n)) b := by
  -- Token by token, until the scanner comes to the line break or passes it.
  induction s using stream_induction generalizing before front a with
  | last s heof =>
    rcases settle_lineBreak hrest with ⟨hnot, hpast⟩ | ⟨w, -, hahead, -⟩
    · exact stream_lineBreak_of_passed hat hsaw hrest hn hnot hpast
    · -- At the end of the text nothing is ahead.
      obtain ⟨gap, -, -, hplace⟩ := settle_at hat
      obtain ⟨text, hread⟩ := read_reads hplace
      have hnil := hread.rest_eq
      rw [hread.rest_of_eof heof, hread.text_eq_nil_iff.2 heof, hahead]
        at hnil
      simp at hnil
  | cons s heof ih =>
    rcases settle_lineBreak hrest with ⟨hnot, hpast⟩ | ⟨w, hw, hahead, hfound⟩
    · exact stream_lineBreak_of_passed hat hsaw hrest hn hnot hpast
    by_cases hnil : w = []
    · subst hnil
      exact stream_lineBreak_of_found hat hsaw hrest hn (hfound rfl) hahead
    obtain ⟨gap, -, hgap, hplace⟩ := settle_at hat
    obtain ⟨text, hread⟩ := read_reads hplace
    obtain rfl : a = gap ++ w := by
      refine (List.append_left_inj ('\n' :: b)).1 ?_
      rw [← hrest, hgap, hahead, List.append_assoc]
    rw [stream_of_not_eof heof] at hfree ⊢
    obtain ⟨hhere, hlater⟩ := List.forall_mem_cons.1 hfree
    rw [hn, ← List.append_assoc] at hhere
    obtain ⟨w', rfl, hrest'⟩ := hread.lineBreak_ahead hahead hnil hhere
    have hstop : s.next.1.span.stop ≤ n := by
      have hspan : s.next.1.span.stop = _ := congrArg Span.stop
        hread.spells.span_eq
      simp only [hspan, hn, byteLength_append, byteLength_nil]
      omega
    rw [List.filter_cons_of_pos (by simpa using hstop), List.append_cons,
      ← ih hread.at_behind (hsaw.next heof) hrest' (by simp [hn]) hlater]
    constructor
    · rintro ⟨t, ht, hkind, ht'⟩
      rcases List.mem_cons.1 ht with rfl | ht
      · have := congrArg Span.stop ht'
        dsimp only at this
        omega
      · exact ⟨t, ht, hkind, ht'⟩
    · rintro ⟨t, ht, h⟩
      exact ⟨t, List.mem_cons_of_mem _ ht, h⟩

end Scanner

/-! ## The tokens of a text -/

/-- **The tokens before decide** what a slash and what a line break is.

A significant token that begins with a slash divides exactly if the last
significant token in front of it may end an expression, and is a regular
expression if not. A line break that no other token holds is a token
exactly if the last significant token in front of it may end a statement,
no line break is a token between the two, and the next line does not go on
with a dot. -/
theorem tokens_inContext (source : List Char) :
    (∀ front t back, tokens source = front ++ t :: back →
      t.isSignificant = true → t.text.toList.head? = some '/' →
      if (precedingKind? front).any TokenKind.canEndExpression then
        t.isSlash = true
      else t.kind = .regex)
    ∧ ∀ a b, source = a ++ '\n' :: b →
      (∀ t ∈ tokens source, t.kind ≠ .lineBreak →
        ¬(t.span.start ≤ byteLength a ∧ byteLength a < t.span.stop)) →
      ((∃ t ∈ tokens source, t.kind = .lineBreak
          ∧ t.span = ⟨byteLength a, byteLength a + 1⟩)
        ↔ BreaksBetween
          ((tokens source).filter (·.span.stop ≤ byteLength a)) b) := by
  have hat := Scanner.ofSource_at source
  have hsaw := Scanner.ofSource_saw source
  refine ⟨fun front t back hstream hsig hslash => ?_,
    fun a b hsource hfree => ?_⟩
  · obtain ⟨u, place, -, -, hseen, rfl⟩ :=
      Scanner.exists_next_eq hat hsaw hstream
    exact hseen.next_slash hsig hslash
  · exact Scanner.stream_lineBreak hat hsaw hsource rfl hfree

/-- In the text below a reserved word behind a dot is a name, so the line
break behind it is a token and the slash on the next line divides; the slash
behind the semicolon begins a regular expression. -/
theorem tokens_inContext_name :
    let source := "a.if\n/b;/c/".toList
    (∃ t ∈ tokens source, t.kind = .lineBreak ∧ t.span = ⟨4, 5⟩)
      ∧ (∃ t ∈ tokens source, t.isSlash = true ∧ t.span = ⟨5, 6⟩)
      ∧ ∃ t ∈ tokens source, t.kind = .regex ∧ t.span = ⟨8, 11⟩ := by
  intro source
  obtain ⟨hslash, hline⟩ := tokens_inContext source
  have hdivides := hslash ((tokens source).take 4)
    ⟨.punctuator .slash, "/", ⟨5, 6⟩, ⟨2, 1, 5⟩, none⟩
    ((tokens source).drop 5) (by decide +kernel) rfl rfl
  have hbegins := hslash ((tokens source).take 7)
    ⟨.regex, "/c/", ⟨8, 11⟩, ⟨2, 4, 8⟩, none⟩
    ((tokens source).drop 8) (by decide +kernel) rfl rfl
  rw [if_pos (by decide +kernel)] at hdivides
  rw [if_neg (by decide +kernel)] at hbegins
  refine ⟨?_, ⟨_, ?_, hdivides, rfl⟩, _, ?_, hbegins, rfl⟩
  · refine (hline "a.if".toList "/b;/c/".toList rfl
      (by decide +kernel)).2 ⟨by decide +kernel, by decide +kernel, ?_⟩
    exact (Scanner.continuesChain_eq_false_iff _).1 (by decide)
  · decide +kernel
  · decide +kernel

end ScriptTree
