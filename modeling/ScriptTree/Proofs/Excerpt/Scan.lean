import ScriptTree.Proofs.Token.Stray
import ScriptTree.Proofs.Token.Walk

/-!
# Scanning a piece of a text

A piece of a text has what stands in front of it cut off, and what stands
behind it. A scanner in the piece finds what the scanner at the same place
of the text finds, as long as that ends inside the piece
(`Scanner.Excerpts.nextSignificant`).

What a token is depends on nothing behind it (`Lexeme.atFront_follow`).
Whether a line break may end a statement does: where the piece ends with a
dot, the text may go on with a digit, and then that dot continues no chain.
So a token that is a dot must not be the last of the piece.
-/

namespace ScriptTree

variable {front tail : List Char} {stop : Nat}

/-- **A token of a text as it is found in a piece** behind `front`. -/
structure Token.Copies (front : List Char) (t t' : Token) : Prop where
  /-- It is of the same kind. -/
  kind_eq : t'.kind = t.kind
  /-- The same is wrong with it. -/
  error_eq : t'.error = t.error
  /-- It is at the same place. -/
  spells : ∃ before text, t.Spells (front ++ before) text
    ∧ t'.Spells before text

theorem Token.Spells.stop_eq {t : Token} {before text : List Char}
    (h : t.Spells before text) :
    t.span.stop = byteLength before + byteLength text := by
  rw [h.span_eq]

/-- **Two scanners at the same place**, the one in a text and the other in a
piece of it, which ends at the offset `stop`. -/
structure Scanner.Excerpts (front tail : List Char) (stop : Nat)
    (x x' : Scanner) : Prop where
  /-- It is the same place. -/
  at_ : ∃ before, x.At (front ++ before) ∧ x'.At before
  /-- The text goes on behind the piece. -/
  rest_eq : x.rest = x'.rest ++ tail
  /-- This is where the piece ends. -/
  stop_eq : x.position.offset + byteLength x'.rest = stop
  /-- They remember the same token. -/
  previous_eq : x'.previous = x.previous
  /-- They remember the same line break. -/
  breakEmitted_eq : x'.breakEmitted = x.breakEmitted

/-- **A token that is found inside a piece.** It may be the last one, unless
it is a dot. -/
structure Token.LiesBefore (stop : Nat) (t : Token) : Prop where
  /-- It is not the end of the text. -/
  isEof : t.isEof = false
  /-- Nothing is wrong with it. -/
  clear : t.error = none
  /-- It ends before the piece does. -/
  le : t.span.stop ≤ stop
  /-- Behind a dot there is more. -/
  lt_of_dot : t.isPunctuator .dot = true → t.span.stop < stop

/-- **Two steps to the same token**, past line breaks in both or in
neither. -/
structure Advance.Excerpts (front tail : List Char) (stop : Nat)
    (a a' : Advance) : Prop where
  /-- The tokens are the same. -/
  token : a.token.Copies front a'.token
  /-- The scanners are at the same place. -/
  scanner : a.scanner.Excerpts front tail stop a'.scanner
  /-- Nothing is wrong with what is passed in the piece. -/
  clear : ∀ y ∈ a'.extras, y.error = none
  /-- A line break is among what is passed in both or in neither. -/
  any_eq : a'.extras.any (·.kind = .lineBreak)
    = a.extras.any (·.kind = .lineBreak)

/-- So many bytes of a text are in its front, if the characters they belong
to are. -/
theorem length_le_of_byteLength_take_le {a b : List Char} {n : Nat}
    (hn : n ≤ (a ++ b).length)
    (h : byteLength ((a ++ b).take n) ≤ byteLength a) : n ≤ a.length := by
  refine Nat.le_of_not_lt (fun hlt => ?_)
  obtain ⟨k, rfl⟩ : ∃ k, n = a.length + (k + 1) :=
    ⟨n - a.length - 1, by omega⟩
  rw [List.take_length_add_append, byteLength_append] at h
  have hpos : 0 < byteLength (b.take (k + 1)) := by
    refine byteLength_pos (fun hnil => ?_)
    rw [List.length_append] at hn
    have hlength := congrArg List.length hnil
    rw [List.length_take, List.length_nil] at hlength
    omega
  omega

namespace Lexeme

/-- **A dot with nothing behind it** in the token is a dot. -/
theorem kind_of_dot {slashDivides : Bool} {cs : List Char}
    (h : (atFront slashDivides '.' cs).extent = 0) :
    (atFront slashDivides '.' cs).kind = .punctuator .dot := by
  cases hlongest : Punctuator.longest? ('.' :: cs) with
  | none =>
    exact absurd hlongest (Punctuator.longest?_ne_none (by decide) (by decide))
  | some found =>
    obtain ⟨p, n⟩ := found
    obtain ⟨hpos, htake⟩ := Punctuator.take_of_longest? hlongest
    have hmark :
        atFront slashDivides '.' cs = ⟨.punctuator p, n - 1, none⟩ := by
      show noComment slashDivides '.' cs = _
      unfold noComment
      rw [hlongest]
      rfl
    rw [hmark] at h ⊢
    obtain rfl : n = 1 := by
      have hextent : n - 1 = 0 := h
      omega
    refine congrArg TokenKind.punctuator
      (Punctuator.spelling_injective (String.toList_injective ?_))
    exact htake.symm

end Lexeme

namespace Scanner

variable {x x' : Scanner} {a : Advance} {c : Char} {cs : List Char}
  {found found' : List Token}

/-! ## Where the next token ends -/

/-- The next token ends behind the scanner's place, unless the text ends
there. -/
theorem offset_lt_stop {before : List Char} (h : x.At before)
    (found : List Token)
    (heof : (x.nextSignificantFrom found).token.isEof = false) :
    x.position.offset < (x.nextSignificantFrom found).token.span.stop := by
  obtain ⟨_, front, text, _, hfinds⟩ := x.nextSignificantFrom_finds found h
  have hne : text ≠ [] := fun hnil =>
    Bool.noConfusion (heof.symm.trans (hfinds.text_eq_nil_iff.1 hnil))
  have hpos := byteLength_pos hne
  have hle := hfinds.le
  rw [hfinds.spells.span_eq, h.position_eq, Position.after_offset]
  show _ < byteLength front + byteLength text
  omega

/-- **No token begins with white space**, if nothing is wrong with the next
one. -/
theorem isWhiteSpace_of_clear (hrest : x.rest = c :: cs)
    (hblank : isBlank c = false) (hline : c ≠ '\n')
    (hclear : (x.nextSignificantFrom found).token.error = none) :
    isWhiteSpace c = false := by
  refine Bool.eq_false_iff.2 (fun hwhite => ?_)
  have hnext := next_cons hrest hblank hline
  rw [Lexeme.atFront_eq_stray _ (beginsToken_of_isWhiteSpace hwhite)] at hnext
  rw [nextSignificantFrom_of_not_extra (by rw [hnext]; rfl), hnext] at hclear
  cases hclear

/-- **A dot at the end of a piece** is the next token, if that is in the
piece. -/
theorem isPunctuator_of_dot (hrest : x.rest = '.' :: cs)
    (hle : (x.nextSignificantFrom found).token.span.stop
      ≤ x.position.offset + 1) :
    (x.nextSignificantFrom found).token.isPunctuator .dot = true := by
  have hnext := next_cons hrest (by decide) (by decide)
  generalize hlexeme : Lexeme.atFront
    (x.previous.any TokenKind.canEndExpression) '.' cs = lexeme at hnext
  have hclass : lexeme.kind.isExtra = false := by
    have hcomment : lexeme.kind ≠ .comment := fun h => absurd
      (Lexeme.eq_slash_of_comment (hlexeme ▸ h)) (by decide)
    have hline := (Lexeme.atFront_kind_ne
      (x.previous.any TokenKind.canEndExpression) '.' cs).2
    rw [hlexeme] at hline
    cases hk : lexeme.kind <;> simp_all [TokenKind.isExtra]
  have hextra : x.next.1.kind.isExtra = false := by
    rw [hnext]
    exact hclass
  rw [nextSignificantFrom_of_not_extra hextra, hnext] at hle ⊢
  have hextent := Lexeme.atFront_extent_le
    (x.previous.any TokenKind.canEndExpression) '.' cs
  rw [hlexeme] at hextent
  have hzero : lexeme.extent + 1 ≤ ['.'].length := by
    refine length_le_of_byteLength_take_le (b := cs) ?_ ?_
    · simpa using hextent
    · have hstop : (x.position.advanceBy
          (x.rest.take (lexeme.extent + 1))).offset
            ≤ x.position.offset + 1 := hle
      rw [Position.advanceBy_offset, hrest] at hstop
      exact Nat.le_of_add_le_add_left hstop
  have hkind : lexeme.kind = .punctuator .dot := by
    rw [← hlexeme]
    refine Lexeme.kind_of_dot ?_
    rw [hlexeme]
    exact Nat.le_zero.1 (Nat.le_of_succ_le_succ hzero)
  exact decide_eq_true hkind

/-- **Whether a chain is continued** does not depend on what is behind the
piece that holds the next token. -/
theorem continuesChain_append {before : List Char} (h : x.At before)
    (found : List Token) (hrest : x.rest = cs ++ tail)
    (hlies : (x.nextSignificantFrom found).token.LiesBefore
      (x.position.offset + byteLength cs)) :
    continuesChain (cs ++ tail) = continuesChain cs := by
  -- On the white space in front of the token.
  induction cs generalizing x before found with
  | nil =>
    have hlt := offset_lt_stop h found hlies.isEof
    have hle := hlies.le
    rw [byteLength_nil] at hle
    omega
  | cons c cs ih =>
    have hpast : (x.past 1).rest = cs ++ tail := by simp [hrest]
    have hstop : (x.past 1).position.offset + byteLength cs
        = x.position.offset + byteLength (c :: cs) := by
      rw [past_offset, hrest, byteLength_cons, Nat.add_assoc]
      rfl
    rw [List.cons_append] at hrest ⊢
    cases hblank : isBlank c with
    | true =>
      cases hwhite : isWhiteSpace c with
      | true =>
        rw [continuesChain_cons_white hwhite, continuesChain_cons_white hwhite]
        refine ih (h.past 1) found hpast ?_
        rw [hstop, nextSignificantFrom_congr (next_past_one hrest
          (by rw [hblank, Bool.true_or]))]
        exact hlies
      | false =>
        have hdot : c ≠ '.' := by
          rintro rfl
          exact absurd hblank (by decide)
        rw [Bool.eq_iff_iff, continuesChain_cons hwhite,
          continuesChain_cons hwhite]
        exact iff_of_false (fun h => hdot h.1) (fun h => hdot h.1)
    | false =>
      by_cases hline : c = '\n'
      · subst hline
        rw [continuesChain_cons_white (by decide),
          continuesChain_cons_white (by decide)]
        have hat : x.pastBreak.At (before ++ x.rest.take 1) :=
          ⟨(h.past 1).source_eq, (h.past 1).position_eq⟩
        refine ih hat (x.breaks ++ found) hpast ?_
        show ((x.pastBreak.nextSignificantFrom _).token).LiesBefore
          ((x.past 1).position.offset + _)
        rw [hstop, ← nextSignificantFrom_lineBreak hrest]
        exact hlies
      · cases hwhite : isWhiteSpace c with
        | true =>
          exact Bool.noConfusion (hwhite.symm.trans
            (isWhiteSpace_of_clear hrest hblank hline hlies.clear))
        | false =>
          rw [Bool.eq_iff_iff, continuesChain_cons hwhite,
            continuesChain_cons hwhite]
          refine and_congr_right (fun hdot => ?_)
          cases cs with
          | cons d cs => exact Iff.rfl
          | nil =>
            -- The piece would end with the dot.
            subst hdot
            have hle := hlies.le
            have hlt := hlies.lt_of_dot (isPunctuator_of_dot hrest hle)
            have hpos := offset_lt_stop h found hlies.isEof
            have hone : byteLength ['.'] = 1 := rfl
            rw [hone] at hlt
            omega

namespace Excerpts

variable {cs' : List Char} {n : Nat}

/-- What stands around the piece is the rest of the text. -/
theorem source_eq (h : x.Excerpts front tail stop x') :
    x.source = front ++ (x'.source ++ tail) := by
  obtain ⟨before, hat, hat'⟩ := h.at_
  rw [hat.source_eq, hat'.source_eq, h.rest_eq]
  simp only [List.append_assoc]

theorem stop_eq_byteLength (h : x.Excerpts front tail stop x') :
    stop = byteLength front + byteLength x'.source := by
  obtain ⟨before, hat, hat'⟩ := h.at_
  rw [← h.stop_eq, hat.position_eq, hat'.source_eq, Position.after_offset,
    byteLength_append, byteLength_append, Nat.add_assoc]

/-- Something is left of a piece that holds the next token. -/
theorem exists_rest (h : x.Excerpts front tail stop x')
    (found : List Token)
    (hlies : (x.nextSignificantFrom found).token.LiesBefore stop) :
    ∃ c cs', x'.rest = c :: cs' := by
  obtain ⟨before, hat, _⟩ := h.at_
  refine List.exists_cons_of_ne_nil (fun hnil => ?_)
  have hlt := offset_lt_stop hat found hlies.isEof
  have hle := hlies.le
  have hstop := h.stop_eq
  rw [hnil, byteLength_nil] at hstop
  omega

theorem take_eq (h : x.Excerpts front tail stop x') (hn : n ≤ x'.rest.length) :
    x.rest.take n = x'.rest.take n := by
  rw [h.rest_eq, List.take_append_of_le_length hn]

/-- **The same piece is cut off** in both texts. -/
theorem copies (h : x.Excerpts front tail stop x') (hn : n ≤ x'.rest.length)
    (kind : TokenKind) (error : Option LexError) :
    (x.take kind n error).1.Copies front (x'.take kind n error).1 := by
  obtain ⟨before, hat, hat'⟩ := h.at_
  refine ⟨rfl, rfl, before, x'.rest.take n, ?_, take_spells hat' kind n error⟩
  rw [← h.take_eq hn]
  exact take_spells hat kind n error

theorem past (h : x.Excerpts front tail stop x') (hn : n ≤ x'.rest.length) :
    (x.past n).Excerpts front tail stop (x'.past n) where
  at_ := by
    obtain ⟨before, hat, hat'⟩ := h.at_
    refine ⟨before ++ x'.rest.take n, ?_, hat'.past n⟩
    rw [← List.append_assoc, ← h.take_eq hn]
    exact hat.past n
  rest_eq := by
    rw [past_rest, past_rest, h.rest_eq, List.drop_append_of_le_length hn]
  stop_eq := by
    rw [past_offset, past_rest, h.take_eq hn, Nat.add_assoc,
      ← byteLength_append, List.take_append_drop, h.stop_eq]
  previous_eq := h.previous_eq
  breakEmitted_eq := h.breakEmitted_eq

theorem past_one (h : x.Excerpts front tail stop x')
    (hrest' : x'.rest = c :: cs') :
    (x.past 1).Excerpts front tail stop (x'.past 1) :=
  h.past (by simp [hrest'])

theorem remember (h : x.Excerpts front tail stop x') (kind : TokenKind) :
    (x.remember kind).Excerpts front tail stop (x'.remember kind) where
  at_ := by
    obtain ⟨before, hat, hat'⟩ := h.at_
    exact ⟨before, hat.remember kind, hat'.remember kind⟩
  rest_eq := by
    rw [remember_rest, remember_rest]
    exact h.rest_eq
  stop_eq := by
    rw [remember_position, remember_rest]
    exact h.stop_eq
  previous_eq := remember_previous_congr h.previous_eq kind
  breakEmitted_eq := remember_breakEmitted_congr h.breakEmitted_eq kind

/-- Whether a line break may end a statement is the same in both texts, if
the token behind it is in the piece. -/
theorem breakMatters_eq (h : x.Excerpts front tail stop x')
    (hrest' : x'.rest = '\n' :: cs') (found : List Token)
    (hlies : (x.nextSignificantFrom found).token.LiesBefore stop) :
    x'.breakMatters cs' = x.breakMatters (cs' ++ tail) := by
  have hrest : x.rest = '\n' :: (cs' ++ tail) := by
    rw [h.rest_eq, hrest', List.cons_append]
  obtain ⟨before, hat, _⟩ := h.at_
  have hpast := (h.past_one hrest').stop_eq
  rw [past_rest, hrest'] at hpast
  have hat : x.pastBreak.At (front ++ before ++ x.rest.take 1) :=
    ⟨(hat.past 1).source_eq, (hat.past 1).position_eq⟩
  have hchain : continuesChain (cs' ++ tail) = continuesChain cs' :=
    continuesChain_append hat (x.breaks ++ found) (by
      show (x.past 1).rest = _
      simp [hrest])
    (by
      rw [← nextSignificantFrom_lineBreak hrest]
      show Token.LiesBefore ((x.past 1).position.offset + byteLength cs') _
      rw [show byteLength cs' = byteLength (('\n' :: cs').drop 1) from rfl,
        hpast]
      exact hlies)
  unfold breakMatters
  rw [h.previous_eq, h.breakEmitted_eq, hchain]

/-- **A lexeme that ends inside the piece** is found there. -/
theorem lexeme (h : x.Excerpts front tail stop x')
    (hrest' : x'.rest = c :: cs') (hblank : isBlank c = false)
    (hline : c ≠ '\n') (hclear : x.next.1.error = none)
    (hle : x.next.1.span.stop ≤ stop) :
    x.next.1.Copies front x'.next.1
      ∧ x.next.2.Excerpts front tail stop x'.next.2 := by
  have hrest : x.rest = c :: (cs' ++ tail) := by
    rw [h.rest_eq, hrest', List.cons_append]
  have hnext := next_cons hrest hblank hline
  have hextent := Lexeme.atFront_extent_le
    (x.previous.any TokenKind.canEndExpression) c (cs' ++ tail)
  generalize hlexeme : Lexeme.atFront
    (x.previous.any TokenKind.canEndExpression) c (cs' ++ tail) = lexeme
    at hnext hextent
  obtain ⟨kind, n, error⟩ := lexeme
  rw [hnext] at hclear hle
  obtain rfl : error = none := hclear
  have hn : n + 1 ≤ (c :: cs').length := by
    refine length_le_of_byteLength_take_le (b := tail)
      (Nat.succ_le_succ hextent) ?_
    have hstop := h.stop_eq
    have hle : (x.position.advanceBy (x.rest.take (n + 1))).offset ≤ stop :=
      hle
    rw [Position.advanceBy_offset, hrest] at hle
    rw [hrest'] at hstop
    rw [List.cons_append]
    omega
  obtain ⟨w, z, rfl, rfl⟩ : ∃ w z, cs' = w ++ z ∧ w.length = n :=
    ⟨cs'.take n, cs'.drop n, (List.take_append_drop n cs').symm,
      List.length_take_of_le (Nat.le_of_succ_le_succ hn)⟩
  rw [List.append_assoc] at hlexeme
  have hlexeme' : Lexeme.atFront (x.previous.any TokenKind.canEndExpression)
      c (w ++ z) = ⟨kind, w.length, none⟩ := by
    by_cases hkind : kind = .comment
    · subst hkind
      obtain rfl : c = '/' := Lexeme.eq_slash_of_comment (by rw [hlexeme])
      refine Lexeme.comment_follow
        (fun _ d z' hz => .inr ⟨z' ++ tail, ?_⟩) hlexeme
      rw [hz, List.cons_append]
    · exact Lexeme.atFront_follow ⟨z, List.prefix_append z tail, .inl rfl⟩
        hkind (fun _ hd => by rw [List.head?_append, hd]; rfl) hlexeme
  have hnext' := next_cons hrest' hblank hline
  rw [h.previous_eq, hlexeme'] at hnext'
  rw [hnext, hnext']
  rw [← hrest'] at hn
  exact ⟨h.copies hn kind none, (h.past hn).remember kind⟩

end Excerpts

/-! ## On the way to a token -/

/-- **Two scanners on the way to a token**, with what they have found so
far. -/
structure Underway (front tail : List Char) (stop : Nat) (a : Advance)
    (x x' : Scanner) (found found' : List Token) : Prop where
  /-- They are at the same place. -/
  excerpts : x.Excerpts front tail stop x'
  /-- This is where the one will come. -/
  leads : x.nextSignificantFrom found = a
  /-- Nothing is wrong with what the other has found. -/
  clear : ∀ y ∈ found', y.error = none
  /-- There is a line break among what both have found, or none. -/
  any_eq : found'.any (·.kind = .lineBreak)
    = found.any (·.kind = .lineBreak)

namespace Underway

variable {cs' : List Char}

/-- **A blank is passed.** -/
theorem blank (h : Underway front tail stop a x x' found found')
    (hrest' : x'.rest = c :: cs') (hblank : isBlank c = true) :
    Underway front tail stop a (x.past 1) (x'.past 1) found found'
      ∧ x'.nextSignificantFrom found'
        = (x'.past 1).nextSignificantFrom found' := by
  have hrest : x.rest = c :: (cs' ++ tail) := by
    rw [h.excerpts.rest_eq, hrest', List.cons_append]
  have hskip : ∀ {s : Scanner} {ds}, s.rest = c :: ds →
      (s.past 1).next = s.next := fun hs =>
    next_past_one hs (by rw [hblank, Bool.true_or])
  refine ⟨⟨h.excerpts.past_one hrest', ?_, h.clear, h.any_eq⟩,
    (nextSignificantFrom_congr (hskip hrest') found').symm⟩
  exact (nextSignificantFrom_congr (hskip hrest) found).trans h.leads

/-- **A line break is passed**, and it matters in both texts or in
neither. -/
theorem lineBreak (h : Underway front tail stop a x x' found found')
    (hrest' : x'.rest = '\n' :: cs') (hlies : a.token.LiesBefore stop) :
    Underway front tail stop a x.pastBreak x'.pastBreak (x.breaks ++ found)
        (x'.breaks ++ found')
      ∧ x'.nextSignificantFrom found'
        = x'.pastBreak.nextSignificantFrom (x'.breaks ++ found') := by
  have hrest : x.rest = '\n' :: (cs' ++ tail) := by
    rw [h.excerpts.rest_eq, hrest', List.cons_append]
  have hpast := h.excerpts.past_one hrest'
  have hmatters : x'.breakMatters x'.rest.tail
      = x.breakMatters x.rest.tail := by
    rw [hrest, hrest']
    refine h.excerpts.breakMatters_eq hrest' found ?_
    rw [h.leads]
    exact hlies
  refine ⟨⟨?_, ?_, ?_, ?_⟩, nextSignificantFrom_lineBreak hrest' found'⟩
  · refine ⟨?_, hpast.rest_eq, hpast.stop_eq, hpast.previous_eq, ?_⟩
    · obtain ⟨before, hat, hat'⟩ := hpast.at_
      exact ⟨before, ⟨hat.source_eq, hat.position_eq⟩,
        ⟨hat'.source_eq, hat'.position_eq⟩⟩
    · show (_ || _) = (_ || _)
      rw [hmatters, h.excerpts.breakEmitted_eq]
  · exact (nextSignificantFrom_lineBreak hrest found).symm.trans h.leads
  · exact fun y hy => (List.mem_append.1 hy).elim (x'.breaks_clear y)
      (h.clear y)
  · rw [List.any_append, List.any_append, any_breaks, any_breaks, hmatters,
      h.any_eq]

/-- **A comment is passed.** -/
theorem comment (h : Underway front tail stop a x x' found found')
    (hrest' : x'.rest = c :: cs') (hblank : isBlank c = false)
    (hline : c ≠ '\n') (hextra : x.next.1.kind.isExtra = true)
    (hclear : x.next.1.error = none) (hlies : a.token.LiesBefore stop) :
    Underway front tail stop a x.next.2 x'.next.2 (x.next.1 :: found)
        (x'.next.1 :: found')
      ∧ x'.nextSignificantFrom found'
        = x'.next.2.nextSignificantFrom (x'.next.1 :: found') := by
  have hleads := (nextSignificantFrom_of_extra hextra found).symm.trans h.leads
  have hle : x.next.1.span.stop ≤ stop := by
    obtain ⟨before, hat, _⟩ := h.excerpts.at_
    obtain ⟨gap, text, hread⟩ := next_reads hat
    have hlt := offset_lt_stop hread.at_behind (x.next.1 :: found) (by
        rw [hleads]
        exact hlies.isEof)
    have hle := hlies.le
    rw [hleads, hread.at_behind.position_eq, Position.after_offset,
      byteLength_append] at hlt
    have hstop : x.next.1.span.stop
        = byteLength (front ++ before ++ gap) + byteLength text := by
      rw [hread.spells.span_eq]
    omega
  obtain ⟨hcopies, hexcerpts⟩ :=
    h.excerpts.lexeme hrest' hblank hline hclear hle
  refine ⟨⟨hexcerpts, hleads, ?_, ?_⟩,
    nextSignificantFrom_of_extra (by rwa [hcopies.kind_eq]) found'⟩
  · refine List.forall_mem_cons.2 ⟨?_, h.clear⟩
    rw [hcopies.error_eq, hclear]
  · rw [List.any_cons, List.any_cons, h.any_eq, hcopies.kind_eq]

/-- **A token of the grammar is found.** -/
theorem excerpts_of_token (h : Underway front tail stop a x x' found found')
    (hrest' : x'.rest = c :: cs') (hblank : isBlank c = false)
    (hline : c ≠ '\n') (hextra : x.next.1.kind.isExtra = false)
    (hlies : a.token.LiesBefore stop) :
    a.Excerpts front tail stop (x'.nextSignificantFrom found') := by
  have ha := h.leads
  rw [nextSignificantFrom_of_not_extra hextra] at ha
  subst ha
  obtain ⟨hcopies, hexcerpts⟩ :=
    h.excerpts.lexeme hrest' hblank hline hlies.clear hlies.le
  rw [nextSignificantFrom_of_not_extra (by rwa [hcopies.kind_eq])]
  refine ⟨hcopies, hexcerpts,
    fun y hy => h.clear y (List.mem_reverse.1 hy), ?_⟩
  rw [List.any_reverse, List.any_reverse, h.any_eq]

/-- **The way leads to the same token.** -/
theorem excerpts_advance (h : Underway front tail stop a x x' found found')
    (hextras : ∀ y ∈ a.extras, y.kind ≠ .lineBreak → y.error = none)
    (hlies : a.token.LiesBefore stop) :
    a.Excerpts front tail stop (x'.nextSignificantFrom found') := by
  -- Along what is left of the piece, whichever of these is in front of it.
  induction hn : x'.rest.length using Nat.strongRecOn
    generalizing x x' found found' with
  | ind n ih =>
    obtain ⟨c, cs', hrest'⟩ := h.excerpts.exists_rest found (by
      rw [h.leads]
      exact hlies)
    cases hblank : isBlank c with
    | true =>
      obtain ⟨hpast, heq⟩ := h.blank hrest' hblank
      rw [heq]
      refine ih _ ?_ hpast rfl
      rw [← hn, past_rest, hrest']
      exact Nat.lt_succ_self _
    | false =>
      by_cases hline : c = '\n'
      · subst hline
        obtain ⟨hpast, heq⟩ := h.lineBreak hrest' hlies
        rw [heq]
        refine ih _ ?_ hpast rfl
        show (x'.past 1).rest.length < n
        rw [← hn, past_rest, hrest']
        exact Nat.lt_succ_self _
      have hrest : x.rest = c :: (cs' ++ tail) := by
        rw [h.excerpts.rest_eq, hrest', List.cons_append]
      cases hextra : x.next.1.kind.isExtra with
      | true =>
        have hmem : x.next.1 ∈ a.extras := by
          rw [← h.leads, nextSignificantFrom_of_extra hextra]
          exact mem_extras List.mem_cons_self
        obtain ⟨hpast, heq⟩ :=
          h.comment hrest' hblank hline hextra
            (hextras _ hmem (next_kind_ne hrest hblank hline).2) hlies
        have heof' := (next_kind_ne hrest' hblank hline).1
        rw [heq]
        exact ih _ (hn ▸ next_rest_length_lt x' heof') hpast rfl
      | false => exact h.excerpts_of_token hrest' hblank hline hextra hlies

end Underway

namespace Excerpts

/-- **The next token of the grammar** is the same in both texts. -/
theorem nextSignificant (h : x.Excerpts front tail stop x')
    (hextras : ∀ y ∈ x.nextSignificant.extras,
      y.kind ≠ .lineBreak → y.error = none)
    (hlies : x.nextSignificant.token.LiesBefore stop) :
    x.nextSignificant.Excerpts front tail stop x'.nextSignificant :=
  Underway.excerpts_advance
    ⟨h, rfl, List.forall_mem_nil _, rfl⟩ hextras hlies

/-- **A token is read again as a regular expression** in both texts, if that
ends inside the piece. -/
theorem rescanRegex {before text : List Char} {t t' : Token}
    (h : x.Excerpts front tail stop x') (hne : text ≠ [])
    (hat' : x'.At (before ++ text)) (ht : t.Spells (front ++ before) text)
    (ht' : t'.Spells before text) (hclear : (x.rescanRegex t).1.error = none)
    (hle : (x.rescanRegex t).1.span.stop ≤ stop) :
    (x.rescanRegex t).1.Copies front (x'.rescanRegex t').1
      ∧ (x.rescanRegex t).2.Excerpts front tail stop
        (x'.rescanRegex t').2 := by
  obtain ⟨c, cs, hcs⟩ := List.exists_cons_of_ne_nil
    (List.append_ne_nil_of_left_ne_nil hne x'.rest)
  have hsource' : x'.source = before ++ c :: cs := by
    rw [hat'.source_eq, List.append_assoc, hcs]
  have hsource : x.source = front ++ before ++ c :: (cs ++ tail) := by
    rw [h.source_eq, hsource']
    simp only [List.append_assoc, List.cons_append]
  have hcut : splitAtByte? x.source t.span.start
      = some (front ++ before, c :: (cs ++ tail)) :=
    splitAtByte?_eq_some_iff.2 ⟨hsource, by rw [ht.span_eq]⟩
  have hcut' : splitAtByte? x'.source t'.span.start = some (before, c :: cs) :=
    splitAtByte?_eq_some_iff.2 ⟨hsource', by rw [ht'.span_eq]⟩
  -- The scanners in front of the token.
  have hback : Scanner.Excerpts front tail stop
      { x with position := t.position, rest := c :: (cs ++ tail) }
      { x' with position := t'.position, rest := c :: cs } := by
    refine ⟨⟨before, ⟨hsource, ht.position_eq⟩, ⟨hsource', ht'.position_eq⟩⟩,
      rfl, ?_, h.previous_eq, h.breakEmitted_eq⟩
    rw [h.stop_eq_byteLength, hsource']
    show t.position.offset + _ = _
    rw [ht.position_eq, Position.after_offset, byteLength_append,
      byteLength_append, Nat.add_assoc]
  have hextent := regexExtent_le false (cs ++ tail) 0
  generalize hlexeme : Lexeme.regex (cs ++ tail) = lexeme
  obtain ⟨kind, n, error⟩ := lexeme
  obtain rfl : TokenKind.regex = kind := congrArg Lexeme.kind hlexeme
  rw [show (regexExtent false (cs ++ tail) 0).1 = n from
    congrArg Lexeme.extent hlexeme, Nat.zero_add] at hextent
  rw [rescanRegex_of_split hcut hlexeme] at hclear hle ⊢
  obtain rfl : error = none := hclear
  have hn : n + 1 ≤ (c :: cs).length := by
    refine length_le_of_byteLength_take_le (b := tail)
      (Nat.succ_le_succ hextent) ?_
    have hle : (t.position.advanceBy
        ((c :: (cs ++ tail)).take (n + 1))).offset ≤ stop := hle
    rw [Position.advanceBy_offset] at hle
    have hstop := hback.stop_eq
    rw [List.cons_append]
    exact Nat.le_of_add_le_add_left (hstop ▸ hle)
  obtain ⟨w, z, rfl, rfl⟩ : ∃ w z, cs = w ++ z ∧ w.length = n :=
    ⟨cs.take n, cs.drop n, (List.take_append_drop n cs).symm,
      List.length_take_of_le (Nat.le_of_succ_le_succ hn)⟩
  rw [List.append_assoc] at hlexeme
  have hlexeme' := Lexeme.regex_follow
    ⟨z, List.prefix_append z tail, .inl rfl⟩ hlexeme
  rw [rescanRegex_of_split hcut' hlexeme']
  have hpast := hback.past hn
  exact ⟨hback.copies hn .regex none,
    ⟨hpast.at_.imp fun _ hat => ⟨⟨hat.1.source_eq, hat.1.position_eq⟩,
        ⟨hat.2.source_eq, hat.2.position_eq⟩⟩,
      hpast.rest_eq, hpast.stop_eq, rfl, rfl⟩⟩

end Excerpts

end Scanner

end ScriptTree
