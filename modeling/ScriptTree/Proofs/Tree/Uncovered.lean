import ScriptTree.Proofs.Tree.Coverage

/-!
# The sweep for uncovered text is exact

The sweep finds the text that no span covers, piece by piece and without
the white space around each piece. The spans it is given may lie in any
order, overlap, enclose one another or be empty: as long as each of them
runs forwards between two cuts of the text, what is found is what has to
be found.

`Uncovered` says what that is, for spans and findings of any origin. Read
from the left, everything found lies behind what the spans so far reach
(`Swept.le_start`), and before the next span begins; so what is found is
in order, and apart from all spans.
-/

namespace ScriptTree

/-! ## Pieces of text -/

/-- **A span of a piece of text** that begins with a mark and ends with
one. -/
inductive Span.IsMarked (source : List Char) : Span → Prop where
  /-- The piece, with the text in front of it and behind it. -/
  | intro {front text behind : List Char} {first last : Char}
      (source_eq : source = front ++ (text ++ behind))
      (head_eq : text.head? = some first)
      (first_mark : isWhiteSpace first = false)
      (last_eq : text.getLast? = some last)
      (last_mark : isWhiteSpace last = false) :
      IsMarked source ⟨byteLength front, byteLength front + byteLength text⟩

theorem Span.IsMarked.start_lt_stop {source : List Char} {r : Span}
    (h : r.IsMarked source) : r.start < r.stop := by
  obtain ⟨_, head_eq, _, _, _⟩ := h
  have htext := byteLength_pos
    (List.ne_nil_of_mem (List.mem_of_mem_head? head_eq))
  exact Nat.lt_add_of_pos_right htext

/-- **What a sweep should find** in a text that some spans cover. -/
structure Uncovered (source : List Char) (covering found : List Span) :
    Prop where
  /-- Nothing found is empty. -/
  start_lt_stop : ∀ r ∈ found, r.start < r.stop
  /-- What is found begins with a mark and ends with one. -/
  isMarked : ∀ r ∈ found, r.IsMarked source
  /-- It is found in the order of the text. -/
  increasing : found.Pairwise (fun r r' => r.start < r'.start)
  /-- Each piece ends before the next one begins. -/
  disjoint : found.Pairwise (fun r r' => r.stop ≤ r'.start)
  /-- Nothing found shares text with a span. -/
  apart : ∀ r ∈ found, ∀ s ∈ covering, r.stop ≤ s.start ∨ s.stop ≤ r.start
  /-- Every mark lies in a span or in something found. -/
  holds : ∀ a c b, source = a ++ c :: b → isWhiteSpace c = false →
    (∃ s ∈ covering, s.Holds a c) ∨ ∃ r ∈ found, r.Holds a c

/-! ## White space taken away -/

theorem exists_trimStart (text : List Char) :
    ∃ space, text = space ++ trimStart text :=
  ⟨_, List.takeWhile_append_dropWhile.symm⟩

theorem head?_trimStart (text : List Char) {c : Char}
    (h : (trimStart text).head? = some c) : isWhiteSpace c = false := by
  have hnot := List.head?_dropWhile_not isWhiteSpace text
  rw [← trimStart, h] at hnot
  exact hnot

theorem exists_trimEnd (text : List Char) :
    ∃ space, text = trimEnd text ++ space := by
  obtain ⟨space, h⟩ := exists_trimStart text.reverse
  refine ⟨space.reverse, ?_⟩
  rw [trimEnd, ← List.reverse_append, ← h, List.reverse_reverse]

theorem getLast?_trimEnd (text : List Char) {c : Char}
    (h : (trimEnd text).getLast? = some c) : isWhiteSpace c = false := by
  rw [trimEnd, List.getLast?_reverse] at h
  exact head?_trimStart text.reverse h

/-- **What is found in a gap** is a piece of it, without the white space
around. -/
theorem mem_trimmedSpan {front gap : List Char} (behind : List Char)
    {r : Span} (hr : r ∈ trimmedSpan (byteLength front) gap) :
    r.IsMarked (front ++ (gap ++ behind)) ∧ byteLength front ≤ r.start
      ∧ r.stop ≤ byteLength front + byteLength gap := by
  unfold trimmedSpan at hr
  obtain ⟨x, hx⟩ := exists_trimStart gap
  obtain ⟨y, hy⟩ := exists_trimEnd (trimStart gap)
  dsimp only at hr
  generalize hcore : trimEnd (trimStart gap) = core at hr hy
  have hsize := congrArg byteLength hx
  have hcut := congrArg byteLength hy
  rw [byteLength_append] at hsize hcut
  cases core with
  | nil => exact absurd hr List.not_mem_nil
  | cons c core =>
    have hr := List.mem_singleton.1 hr
    have hstart : byteLength front + (byteLength gap
        - byteLength (trimStart gap)) = byteLength (front ++ x) := by
      rw [byteLength_append]
      omega
    rw [hstart] at hr
    subst hr
    have hlast : (c :: core).getLast? = some ((c :: core).getLast (by simp)) :=
      List.getLast?_eq_some_getLast (List.cons_ne_nil c core)
    have hsource : front ++ (gap ++ behind)
        = (front ++ x) ++ (c :: core ++ (y ++ behind)) := by
      have hgap : gap = x ++ (c :: core ++ y) := by rw [← hy, ← hx]
      rw [hgap]
      simp only [List.append_assoc]
    refine ⟨.intro hsource rfl ?_ hlast ?_, ?_, ?_⟩
    · exact head?_trimStart gap (by rw [hy]; rfl)
    · exact getLast?_trimEnd (trimStart gap) (hcore.symm ▸ hlast)
    · exact Nat.le.intro (byteLength_append front x).symm
    · dsimp only
      omega

/-- At most one piece is found in a gap. -/
theorem trimmedSpan_pairwise (R : Span → Span → Prop) (start : Nat)
    (gap : List Char) : (trimmedSpan start gap).Pairwise R := by
  unfold trimmedSpan
  dsimp only
  split
  · exact .nil
  · exact List.pairwise_singleton R _

/-! ## Along the sweep -/

namespace Swept

variable {text : List Char} {reached : Nat} {spans found : List Span}

/-- Each finding is a piece of text and lies behind what was reached. -/
theorem isMarked (h : Swept text reached spans found) {r : Span}
    (hr : r ∈ found) : r.IsMarked text ∧ reached ≤ r.start := by
  induction h with
  | @last front gap htext =>
    obtain ⟨hmarked, hstart, _⟩ := mem_trimmedSpan [] hr
    rw [List.append_nil, ← htext] at hmarked
    exact ⟨hmarked, hstart⟩
  | @next front gap behind s spans found htext _ _ ih =>
    rcases List.mem_append.1 hr with hr | hr
    · obtain ⟨hmarked, hstart, _⟩ := mem_trimmedSpan behind hr
      rw [← htext] at hmarked
      exact ⟨hmarked, hstart⟩
    · obtain ⟨hmarked, hstart⟩ := ih hr
      exact ⟨hmarked, Nat.le_trans (Nat.le_max_left ..) hstart⟩

/-- A finding in the gap in front of a span ends before the span
begins. -/
theorem stop_le {front gap : List Char} {s r : Span}
    (hstop : byteLength front + byteLength gap
      = max (byteLength front) s.start)
    (hr : r ∈ trimmedSpan (byteLength front) gap) : r.stop ≤ s.start := by
  obtain ⟨hmarked, hlo, hhi⟩ := mem_trimmedSpan [] hr
  have hpos := hmarked.start_lt_stop
  omega

/-- **Nothing found shares text with a span**: a finding lies before the
next span, and so before all that follow, or behind what is reached once
that span is passed. -/
theorem apart (h : Swept text reached spans found)
    (hsorted : spans.Pairwise (fun s t => s.start ≤ t.start)) {r s : Span}
    (hr : r ∈ found) (hs : s ∈ spans) :
    r.stop ≤ s.start ∨ s.stop ≤ r.start := by
  induction h with
  | last => exact absurd hs List.not_mem_nil
  | @next front gap behind t spans found _ hstop rest ih =>
    obtain ⟨ht, hsorted⟩ := List.pairwise_cons.1 hsorted
    rcases List.mem_append.1 hr with hr | hr
    · have hle := stop_le hstop hr
      rcases List.mem_cons.1 hs with rfl | hs
      · exact .inl hle
      · exact .inl (Nat.le_trans hle (ht s hs))
    · rcases List.mem_cons.1 hs with rfl | hs
      · exact .inr (Nat.le_trans (Nat.le_max_right ..) (rest.isMarked hr).2)
      · exact ih hsorted hr hs

/-- **Each piece ends before the next one begins**, where no span runs
backwards. -/
theorem pairwise (h : Swept text reached spans found)
    (hspans : ∀ s ∈ spans, s.start ≤ s.stop) :
    found.Pairwise (fun r r' => r.stop ≤ r'.start) := by
  induction h with
  | last => exact trimmedSpan_pairwise _ _ _
  | @next front gap behind s spans found _ hstop rest ih =>
    obtain ⟨hs, hspans⟩ := List.forall_mem_cons.1 hspans
    refine List.pairwise_append.2
      ⟨trimmedSpan_pairwise _ _ _, ih hspans, fun r hr r' hr' => ?_⟩
    calc r.stop ≤ s.start := stop_le hstop hr
      _ ≤ s.stop := hs
      _ ≤ max (byteLength front) s.stop := Nat.le_max_right ..
      _ ≤ r'.start := (rest.isMarked hr').2

end Swept

/-- **The uncovered text of a script is exact** for any spans that run
forwards between cuts of the text. -/
theorem Program.uncovered_exact (p : Program) (source : List Char)
    (hspans : ∀ s ∈ p.coveringSpans, s.start ≤ s.stop
      ∧ IsCut source s.start ∧ IsCut source s.stop) :
    Uncovered source p.coveringSpans (p.uncovered source) := by
  obtain ⟨spans, hmem, hsorted, hswept⟩ :=
    uncovered_swept (fun s hs => (hspans s hs).2)
  have hspans : ∀ s ∈ spans, s.start ≤ s.stop ∧ IsCut source s.stop :=
    fun s hs =>
      have h := hspans s ((hmem s).1 hs)
      ⟨h.1, h.2.2⟩
  have hpos : ∀ r ∈ p.uncovered source, r.start < r.stop := fun r hr =>
    (hswept.isMarked hr).1.start_lt_stop
  have hdisjoint := hswept.pairwise (fun s hs => (hspans s hs).1)
  refine ⟨hpos, fun r hr => (hswept.isMarked hr).1, ?_, hdisjoint,
    fun r hr s hs => hswept.apart hsorted hr ((hmem s).2 hs), ?_⟩
  · exact hdisjoint.imp_of_mem (fun hr _ hle =>
      Nat.lt_of_lt_of_le (hpos _ hr) hle)
  · intro a c b heq hc
    refine (hswept.holds (fun s hs => (hspans s hs).2) heq
      (Nat.zero_le _) hc).imp_left (fun ⟨s, hs, hholds⟩ => ?_)
    exact ⟨s, (hmem s).1 hs, hholds⟩

/-- A script whose spans are out of order, one inside another, two that
overlap and an empty one. -/
def Program.scattered : Program where
  body := [.empty ⟨9, 12⟩, .empty ⟨0, 1⟩, .empty ⟨10, 11⟩]
  comments := [⟨.line, "", ⟨13, 13⟩⟩, ⟨.block, "", ⟨6, 10⟩⟩]
  span := ⟨0, 17⟩

/-- The empty span parts what is found. -/
theorem Program.uncovered_exact_scattered :
    Uncovered "a é b,cd efgh\u3000".toList scattered.coveringSpans
      [⟨2, 6⟩, ⟨12, 13⟩, ⟨13, 14⟩] := by
  -- The sort does not compute by unfolding alone.
  have hsorted : scattered.coveringSpans.mergeSort
      (fun a b : Span => a.start ≤ b.start)
      = [⟨0, 1⟩, ⟨6, 10⟩, ⟨9, 12⟩, ⟨10, 11⟩, ⟨13, 13⟩] := by
    simp [scattered, coveringSpans, Statement.span, List.mergeSort]
  have hfound : scattered.uncovered "a é b,cd efgh\u3000".toList
      = [⟨2, 6⟩, ⟨12, 13⟩, ⟨13, 14⟩] := by
    rw [uncovered, hsorted]
    decide +kernel
  exact hfound ▸ uncovered_exact scattered _ (by decide +kernel)

end ScriptTree
