import ScriptTree.Tree.Coverage
import ScriptTree.Proofs.Text.Cut

/-!
# What the sweep for uncovered text finds

`Program.uncovered` sweeps over spans ordered by their starts. Where all
spans run between cuts of the text the sweep never has to give up a gap,
and its run is a `Swept`: the text falls into gaps, each from where the
spans so far reach to where the next one begins, and each gap is reported
without the white space around it.

From the run two things can be read off. A mark – a character that is not
white space – that lies in no span lies in something found; and what is
found begins with such a mark. So nothing is found exactly if all marks
lie in spans (`uncovered_eq_nil_iff`).
-/

namespace ScriptTree

/-! ## White space around a text -/

/-- A text is all white space, or white space and a mark and the rest. -/
theorem trimStart_cases (text : List Char) :
    (∀ d ∈ text, isWhiteSpace d = true) ∧ trimStart text = []
      ∨ ∃ x c rest, text = x ++ c :: rest
        ∧ (∀ d ∈ x, isWhiteSpace d = true) ∧ isWhiteSpace c = false
        ∧ trimStart text = c :: rest := by
  unfold trimStart
  induction text with
  | nil => exact .inl ⟨fun _ h => absurd h List.not_mem_nil, rfl⟩
  | cons c text ih =>
    cases hc : isWhiteSpace c with
    | false =>
      exact .inr ⟨[], c, text, rfl, fun _ h => absurd h List.not_mem_nil, hc,
        List.dropWhile_cons_of_neg (Bool.eq_false_iff.1 hc)⟩
    | true =>
      rw [List.dropWhile_cons_of_pos hc]
      rcases ih with ⟨hall, hnil⟩ | ⟨x, d, rest, rfl, hx, hd, hdrop⟩
      · exact .inl ⟨List.forall_mem_cons.2 ⟨hc, hall⟩, hnil⟩
      · exact .inr ⟨c :: x, d, rest, rfl, List.forall_mem_cons.2 ⟨hc, hx⟩,
          hd, hdrop⟩

/-- A text that begins with a mark is what is left of it without the white
space at its end, and that begins with the mark. -/
theorem trimEnd_cons {c : Char} (rest : List Char)
    (hc : isWhiteSpace c = false) :
    ∃ core y, rest = core ++ y ∧ (∀ d ∈ y, isWhiteSpace d = true)
      ∧ trimEnd (c :: rest) = c :: core := by
  unfold trimEnd
  rcases trimStart_cases (c :: rest).reverse with
    ⟨hall, _⟩ | ⟨x, d, front, heq, hx, _, hdrop⟩
  · exact absurd (hall c (List.mem_reverse.2 (List.mem_cons_self ..)))
      (Bool.eq_false_iff.1 hc)
  · have hrest : c :: rest = (front.reverse ++ [d]) ++ x.reverse := by
      have heq := congrArg List.reverse heq
      simpa using heq
    rw [hdrop, List.reverse_cons]
    -- The mark is the first character of what is left.
    cases hfront : front.reverse with
    | nil =>
      rw [hfront] at hrest
      obtain ⟨rfl, rfl⟩ := List.cons_eq_cons.1 hrest
      exact ⟨[], x.reverse, rfl, fun d hd => hx d (List.mem_reverse.1 hd),
        rfl⟩
    | cons e core =>
      rw [hfront] at hrest
      obtain ⟨rfl, rfl⟩ := List.cons_eq_cons.1 hrest
      exact ⟨core ++ [d], x.reverse, rfl,
        fun d hd => hx d (List.mem_reverse.1 hd), rfl⟩

/-- **What is found in a gap**: nothing in white space, and otherwise one
span that begins with a mark and behind which there is white space
only. -/
theorem trimmedSpan_cases (start : Nat) (gap : List Char) :
    (∀ d ∈ gap, isWhiteSpace d = true) ∧ trimmedSpan start gap = []
      ∨ ∃ x c core y, gap = x ++ (c :: core ++ y)
        ∧ (∀ d ∈ x, isWhiteSpace d = true)
        ∧ (∀ d ∈ y, isWhiteSpace d = true) ∧ isWhiteSpace c = false
        ∧ trimmedSpan start gap = [⟨start + byteLength x,
          start + byteLength x + byteLength (c :: core)⟩] := by
  unfold trimmedSpan
  rcases trimStart_cases gap with
    ⟨hall, hnil⟩ | ⟨x, c, rest, rfl, hx, hc, hdrop⟩
  · rw [hnil]
    exact .inl ⟨hall, rfl⟩
  · obtain ⟨core, y, rfl, hy, htrim⟩ := trimEnd_cons rest hc
    refine .inr ⟨x, c, core, y, rfl, hx, hy, hc, ?_⟩
    rw [hdrop]
    dsimp only
    rw [htrim, byteLength_append, Nat.add_sub_cancel]
    rfl

/-! ## The sweep -/

/-- **A run of the sweep** over spans of a text, from where the spans
before them reach, with what it finds. -/
inductive Swept (text : List Char) :
    (reached : Nat) → (spans found : List Span) → Prop where
  /-- The last gap goes to the end of the text. -/
  | last {front gap : List Char} (eq : text = front ++ gap) :
      Swept text (byteLength front) [] (trimmedSpan (byteLength front) gap)
  /-- Any other gap goes to where the next span begins. -/
  | next {front gap behind : List Char} {s : Span} {spans found : List Span}
      (eq : text = front ++ (gap ++ behind))
      (stop : byteLength front + byteLength gap
        = max (byteLength front) s.start)
      (rest : Swept text (max (byteLength front) s.stop) spans found) :
      Swept text (byteLength front) (s :: spans)
        (trimmedSpan (byteLength front) gap ++ found)

/-- The sweep goes on from where the text can be cut. -/
theorem sweepGaps_skip {mid : List Char} {offset reached : Nat}
    (h : byteLength mid = reached - offset) (rest : List Char)
    (spans : List Span) :
    sweepGaps offset (mid ++ rest) reached spans
      = sweepGaps reached rest reached spans := by
  have hmid : splitAtByte? (mid ++ rest) (reached - offset)
      = some (mid, rest) := splitAtByte?_eq_some_iff.2 ⟨rfl, h⟩
  have hzero : splitAtByte? rest (reached - reached) = some ([], rest) :=
    splitAtByte?_eq_some_iff.2 ⟨rfl, (Nat.sub_self reached).symm⟩
  cases spans with
  | nil => simp only [sweepGaps, hmid, hzero]
  | cons s spans => simp only [sweepGaps, hmid, hzero]

/-- A cut behind a front of a text is a cut of the rest. -/
theorem IsCut.split {front rest : List Char} {offset : Nat}
    (h : IsCut (front ++ rest) offset) (hle : byteLength front ≤ offset) :
    ∃ gap behind, rest = gap ++ behind
      ∧ byteLength front + byteLength gap = offset := by
  obtain ⟨a, b, hab, rfl⟩ := h
  rcases List.append_eq_append_iff.1 hab with ⟨d, rfl, rfl⟩ | ⟨d, rfl, rfl⟩
  · exact ⟨d, b, rfl, (byteLength_append front d).symm⟩
  · rw [byteLength_append] at hle
    obtain rfl : d = [] := byteLength_eq_zero_iff.1 (by omega)
    exact ⟨[], rest, rfl, by simp⟩

theorem IsCut.max {text : List Char} {m n : Nat} (hm : IsCut text m)
    (hn : IsCut text n) : IsCut text (max m n) := by
  rcases Nat.le_total m n with h | h
  · rwa [Nat.max_eq_right h]
  · rwa [Nat.max_eq_left h]

/-- **A sweep over spans between cuts** runs through. -/
theorem sweepGaps_swept {text front rest : List Char} {spans : List Span}
    (htext : text = front ++ rest)
    (hspans : ∀ s ∈ spans, IsCut text s.start ∧ IsCut text s.stop) :
    Swept text (byteLength front) spans
      (sweepGaps (byteLength front) rest (byteLength front) spans) := by
  have hzero : ∀ rest : List Char,
      splitAtByte? rest (byteLength front - byteLength front)
        = some ([], rest) := fun rest =>
    splitAtByte?_eq_some_iff.2 ⟨rfl, (Nat.sub_self _).symm⟩
  induction spans generalizing front rest with
  | nil =>
    simp only [sweepGaps, hzero]
    exact .last htext
  | cons s spans ih =>
    obtain ⟨⟨hstart, hstop⟩, hspans⟩ := List.forall_mem_cons.1 hspans
    have hfront : IsCut text (byteLength front) := ⟨front, rest, htext, rfl⟩
    have hstart := hfront.max hstart
    have hstop := hfront.max hstop
    rw [htext] at hstart hstop
    obtain ⟨gap, behind, hgap, hlength⟩ := hstart.split (Nat.le_max_left ..)
    obtain ⟨mid, rest', rfl, hmid⟩ := hstop.split (Nat.le_max_left ..)
    have hsplit : splitAtByte? (mid ++ rest') (s.start - byteLength front)
        = some (gap, behind) :=
      splitAtByte?_eq_some_iff.2 ⟨hgap, by omega⟩
    simp only [sweepGaps, hzero, hsplit, Option.map_some, Option.getD_some]
    rw [sweepGaps_skip (by omega), ← hmid, ← byteLength_append]
    refine .next (hgap ▸ htext) hlength ?_
    rw [← hmid, ← byteLength_append]
    exact ih (by rw [htext, List.append_assoc]) hspans
      (fun rest => splitAtByte?_eq_some_iff.2
        ⟨rfl, (Nat.sub_self _).symm⟩)

/-! ## What is found -/

namespace Swept

variable {text : List Char} {reached : Nat} {spans found : List Span}

/-- A mark is not among white space. -/
theorem not_in_space {x y z a b : List Char} {c : Char}
    (heq : x ++ (y ++ z) = a ++ c :: b)
    (hy : ∀ d ∈ y, isWhiteSpace d = true) (hc : isWhiteSpace c = false)
    (hlo : byteLength x ≤ byteLength a) :
    byteLength x + byteLength y ≤ byteLength a := by
  refine Nat.le_of_not_lt (fun hhi => ?_)
  obtain ⟨y₁, y₂, rfl, _⟩ := exists_of_append_eq heq hlo hhi
  exact Bool.false_ne_true (hc.symm.trans (hy c (by simp)))

/-- A mark in a gap lies in what is found there. -/
theorem holds_gap {front gap behind a b : List Char} {c : Char}
    (heq : front ++ (gap ++ behind) = a ++ c :: b)
    (hlo : byteLength front ≤ byteLength a)
    (hhi : byteLength a < byteLength front + byteLength gap)
    (hc : isWhiteSpace c = false) :
    ∃ s ∈ trimmedSpan (byteLength front) gap, s.Holds a c := by
  rcases trimmedSpan_cases (byteLength front) gap with
    ⟨hall, _⟩ | ⟨x, d, core, y, rfl, hx, hy, _, hfound⟩
  · exact absurd (not_in_space heq hall hc hlo) (Nat.not_le.2 hhi)
  rw [hfound]
  refine ⟨_, List.mem_singleton_self _, ?_⟩
  -- The mark is behind the white space before what is found.
  have heq : front ++ (x ++ (d :: core ++ (y ++ behind))) = a ++ c :: b := by
    rw [← heq]
    simp
  have hlo := not_in_space heq hx hc hlo
  have heq : (front ++ x) ++ (d :: core ++ (y ++ behind)) = a ++ c :: b := by
    rw [← heq]
    simp
  rw [← byteLength_append] at hlo ⊢
  by_cases hcore :
      byteLength a < byteLength (front ++ x) + byteLength (d :: core)
  · obtain ⟨y₁, y₂, hmid, rfl⟩ := exists_of_append_eq heq hlo hcore
    refine ⟨hlo, ?_⟩
    show _ ≤ byteLength (front ++ x) + byteLength (d :: core)
    rw [hmid]
    simp only [byteLength_append, byteLength_cons]
    omega
  · -- It would be in the white space behind otherwise.
    have heq : ((front ++ x) ++ d :: core) ++ (y ++ behind) = a ++ c :: b := by
      rw [← heq]
      simp
    have hle := not_in_space heq hy hc
      (by rw [byteLength_append]; exact Nat.le_of_not_lt hcore)
    simp only [byteLength_append, byteLength_cons] at hle hhi
    omega

/-- **A mark lies in a span or in something found.** -/
theorem holds (h : Swept text reached spans found)
    (hspans : ∀ s ∈ spans, IsCut text s.stop) {a b : List Char} {c : Char}
    (heq : text = a ++ c :: b) (hlo : reached ≤ byteLength a)
    (hc : isWhiteSpace c = false) :
    (∃ s ∈ spans, s.Holds a c) ∨ ∃ s ∈ found, s.Holds a c := by
  induction h with
  | @last front gap htext =>
    have hlength := congrArg byteLength (htext.symm.trans heq)
    have hpos := Char.utf8Size_pos c
    simp only [byteLength_append, byteLength_cons] at hlength
    have heq : front ++ (gap ++ []) = a ++ c :: b := by
      rw [List.append_nil, ← htext, heq]
    exact .inr (holds_gap heq hlo (by omega) hc)
  | @next front gap behind s spans found htext hstop _ ih =>
    obtain ⟨hs, hspans⟩ := List.forall_mem_cons.1 hspans
    by_cases hgap : byteLength a < byteLength front + byteLength gap
    · obtain ⟨t, ht, hholds⟩ := holds_gap (htext.symm.trans heq) hlo hgap hc
      exact .inr ⟨t, List.mem_append_left _ ht, hholds⟩
    by_cases hspan : byteLength a < s.stop
    · rw [heq] at hs
      exact .inl ⟨s, List.mem_cons_self .., by omega, hs.le_of_lt hspan⟩
    · rcases ih hspans (by omega) with ⟨t, ht, hholds⟩ | ⟨t, ht, hholds⟩
      · exact .inl ⟨t, List.mem_cons_of_mem s ht, hholds⟩
      · exact .inr ⟨t, List.mem_append_right _ ht, hholds⟩

/-- Where something is found in a gap there is a mark in it. -/
theorem begins_gap {start : Nat} {gap : List Char} {r : Span}
    (hr : r ∈ trimmedSpan start gap) :
    ∃ x c y, gap = x ++ c :: y ∧ isWhiteSpace c = false := by
  rcases trimmedSpan_cases start gap with
    ⟨_, hnil⟩ | ⟨x, c, core, y, rfl, _, _, hc, _⟩
  · rw [hnil] at hr
    exact absurd hr List.not_mem_nil
  · exact ⟨x, c, core ++ y, rfl, hc⟩

/-- **Where something is found** there is a mark that lies in no span. -/
theorem begins (h : Swept text reached spans found)
    (hsorted : spans.Pairwise (fun s t => s.start ≤ t.start)) {r : Span}
    (hr : r ∈ found) :
    ∃ a c b, text = a ++ c :: b ∧ reached ≤ byteLength a
      ∧ isWhiteSpace c = false ∧ ∀ s ∈ spans, ¬s.Holds a c := by
  induction h with
  | @last front gap htext =>
    obtain ⟨x, c, y, rfl, hc⟩ := begins_gap hr
    refine ⟨front ++ x, c, y, ?_, ?_, hc, fun _ h => (nomatch h)⟩
    · rw [htext, List.append_assoc]
    · rw [byteLength_append]
      exact Nat.le_add_right _ _
  | @next front gap behind s spans found htext hstop _ ih =>
    obtain ⟨hs, hsorted⟩ := List.pairwise_cons.1 hsorted
    rcases List.mem_append.1 hr with hr | hr
    · obtain ⟨x, c, y, rfl, hc⟩ := begins_gap hr
      have hpos := Char.utf8Size_pos c
      simp only [byteLength_append, byteLength_cons] at hstop
      refine ⟨front ++ x, c, y ++ behind, ?_, ?_, hc, ?_⟩
      · rw [htext]
        simp
      · rw [byteLength_append]
        exact Nat.le_add_right _ _
      · -- The gap ends where the first span begins, and no other begins
        -- before that.
        intro t ht hholds
        have hstart : s.start ≤ t.start := by
          rcases List.mem_cons.1 ht with rfl | ht
          · exact Nat.le_refl _
          · exact hs t ht
        have hlo := hholds.1
        rw [byteLength_append] at hlo
        omega
    · obtain ⟨a, c, b, heq, hlo, hc, hnone⟩ := ih hsorted hr
      refine ⟨a, c, b, heq, by omega, hc, fun t ht hholds => ?_⟩
      rcases List.mem_cons.1 ht with rfl | ht
      · have hpos := Char.utf8Size_pos c
        have hhi := hholds.2
        omega
      · exact hnone t ht hholds

end Swept

/-- **The sweep for the uncovered text of a script** runs over the spans
of its statements and comments in order. -/
theorem Program.uncovered_swept {p : Program} {source : List Char}
    (hspans : ∀ s ∈ p.coveringSpans,
      IsCut source s.start ∧ IsCut source s.stop) :
    ∃ spans : List Span, (∀ s, s ∈ spans ↔ s ∈ p.coveringSpans)
      ∧ spans.Pairwise (fun s t => s.start ≤ t.start)
      ∧ Swept source 0 spans (p.uncovered source) := by
  refine ⟨p.coveringSpans.mergeSort (fun a b => a.start ≤ b.start),
    fun s => List.mem_mergeSort, ?_, ?_⟩
  · refine (List.pairwise_mergeSort (fun a b c hab hbc => ?_)
      (fun a b => ?_) p.coveringSpans).imp of_decide_eq_true
    · exact decide_eq_true (Nat.le_trans (of_decide_eq_true hab)
        (of_decide_eq_true hbc))
    · simp only [Bool.or_eq_true, decide_eq_true_eq]
      exact Nat.le_total _ _
  · exact sweepGaps_swept (show source = [] ++ source from rfl)
      (fun s hs => hspans s (List.mem_mergeSort.1 hs))

/-- **Nothing is found exactly if every mark lies in a span** of a
statement or a comment. -/
theorem Program.uncovered_eq_nil_iff {p : Program} {source : List Char}
    (hspans : ∀ s ∈ p.coveringSpans,
      IsCut source s.start ∧ IsCut source s.stop) :
    p.uncovered source = [] ↔ ∀ a c b, source = a ++ c :: b →
      isWhiteSpace c = false → ∃ s ∈ p.coveringSpans, s.Holds a c := by
  obtain ⟨spans, hmem, hsorted, hswept⟩ := uncovered_swept hspans
  constructor
  · intro hnil a c b heq hc
    rw [hnil] at hswept
    have hstops : ∀ s ∈ spans, IsCut source s.stop := fun s hs =>
      (hspans s ((hmem s).1 hs)).2
    obtain ⟨s, hs, hholds⟩ | ⟨s, hs, _⟩ :=
      hswept.holds hstops heq (Nat.zero_le _) hc
    · exact ⟨s, (hmem s).1 hs, hholds⟩
    · exact absurd hs List.not_mem_nil
  · intro hall
    refine List.eq_nil_iff_forall_not_mem.2 (fun r hr => ?_)
    obtain ⟨a, c, b, heq, _, hc, hnone⟩ := hswept.begins hsorted hr
    obtain ⟨s, hs, hholds⟩ := hall a c b heq hc
    exact hnone s ((hmem s).2 hs) hholds

end ScriptTree
