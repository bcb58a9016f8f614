import ScriptTree.Proofs.Token.Reading

/-!
# The tokens of a text tile it

`TokenStream` says what the stream of tokens is, one token at a time: some
filler and a token, over and over, and at the end some filler and the end
of the text. That the stream is so is an induction along its tokens, from
what one step of the scanner does (`Scanner.drainFrom_stream`).

Everything a reader of the stream may rely on follows: where its tokens
lie, that nothing but filler lies between them, and that the text can be
put together again from them (`tokens_tile`).
-/

namespace ScriptTree

/-- **A stream of tokens** for the text `rest` that lies behind the front
`before`. -/
inductive TokenStream : (before rest : List Char) → List Token → Prop where
  /-- Behind the last filler the text ends. -/
  | last {before gap : List Char} {t : Token}
      (filler : ∀ c ∈ gap, IsFiller c) (isEof : t.isEof = true)
      (spells : t.Spells (before ++ gap) []) :
      TokenStream before gap [t]
  /-- A token, and what comes behind it. -/
  | cons {before gap text rest : List Char} {t : Token} {ts : List Token}
      (filler : ∀ c ∈ gap, IsFiller c) (isEof : t.isEof = false)
      (text_ne : text ≠ []) (spells : t.Spells (before ++ gap) text)
      (behind : TokenStream (before ++ gap ++ text) rest ts) :
      TokenStream before (gap ++ (text ++ rest)) (t :: ts)

/-- **Draining a scanner makes a stream**: each step adds its token. -/
theorem Scanner.drainFrom_stream (s : Scanner) (found : List Token)
    {before : List Char} (h : s.At before) :
    ∃ ts, (s.drainFrom found).1 = found.reverse ++ ts
      ∧ TokenStream before s.rest ts := by
  -- Along the loop: the tokens found so far are reversed in front.
  fun_induction drainFrom s found generalizing before with
  | case1 s found step =>
    rename_i heof
    obtain ⟨gap, text, hread⟩ := next_reads h
    obtain rfl : text = [] := hread.text_eq_nil_iff.2 heof
    refine ⟨[s.next.1], by simp [step], ?_⟩
    rw [hread.rest_eq, hread.rest_of_eof heof, List.append_nil,
      List.append_nil]
    exact .last hread.filler heof hread.spells
  | case2 s found step heof =>
    rename_i ih
    obtain ⟨gap, text, hread⟩ := next_reads h
    obtain ⟨ts, hts, hstream⟩ := ih hread.at_behind
    refine ⟨s.next.1 :: ts, by simp [hts, step], ?_⟩
    rw [hread.rest_eq]
    exact .cons hread.filler (Bool.eq_false_iff.2 heof)
      (fun h0 => heof (hread.text_eq_nil_iff.1 h0)) hread.spells hstream

theorem tokens_stream (source : List Char) :
    TokenStream [] source (tokens source) := by
  obtain ⟨ts, hts, hstream⟩ :=
    (Scanner.ofSource source).drainFrom_stream [] (Scanner.ofSource_at source)
  have htokens : tokens source = ts := by
    rw [tokens, Scanner.drain, if_neg (by simp [Scanner.ofSource]), hts]
    exact List.nil_append ts
  rw [htokens]
  exact hstream

/-! ## What a stream is made of -/

/-- **The spans in front of the tokens**, each from where the token before
it ends. -/
def gapsFrom : (offset : Nat) → List Token → List Span
  | _, [] => []
  | offset, t :: ts => ⟨offset, t.span.start⟩ :: gapsFrom t.span.stop ts

namespace TokenStream

variable {before rest : List Char} {ts : List Token}

/-- A stream ends with the end of the text, and only there. -/
theorem exists_eq_concat (h : TokenStream before rest ts) :
    ∃ front last, ts = front ++ [last] ∧ (∀ t ∈ front, t.kind ≠ .eof)
      ∧ last.kind = .eof
      ∧ last.span = .emptyAt (byteLength (before ++ rest)) := by
  induction h with
  | last _ isEof spells =>
    exact ⟨[], _, rfl, by simp, by simpa [Token.isEof] using isEof,
      spells.span_eq⟩
  | @cons before gap text rest t ts _ isEof _ _ _ ih =>
    obtain ⟨front, last, rfl, hfront, hlast, hspan⟩ := ih
    refine ⟨t :: front, last, rfl, ?_, hlast, ?_⟩
    · intro u hu
      rcases List.mem_cons.1 hu with rfl | hu
      · simpa [Token.isEof] using isEof
      · exact hfront u hu
    · rw [hspan]
      simp

/-- **Each token but the end holds text**, and it is the text of its
span. -/
theorem fits (h : TokenStream before rest ts) :
    ∀ t ∈ ts, t.kind ≠ .eof → t.span.Fits (before ++ rest)
      ∧ t.text = String.ofList (t.span.slice (before ++ rest)) := by
  induction h with
  | last _ isEof _ =>
    intro t ht hkind
    obtain rfl := List.mem_singleton.1 ht
    exact absurd (by simpa [Token.isEof] using isEof) hkind
  | @cons before gap text rest t ts _ _ text_ne spells _ ih =>
    have heq : before ++ (gap ++ (text ++ rest))
        = (before ++ gap) ++ (text ++ rest) := by simp
    intro u hu hkind
    rcases List.mem_cons.1 hu with rfl | hu
    · have hpos := byteLength_pos text_ne
      refine ⟨⟨?_, ?_, ?_⟩, ?_⟩
      · rw [spells.span_eq, heq]
        exact isCut_append _ _
      · rw [spells.span_eq, heq, ← List.append_assoc, ← byteLength_append]
        exact isCut_append _ _
      · rw [spells.span_eq]
        show byteLength _ < byteLength _ + _
        omega
      · rw [spells.text_eq, spells.span_eq, heq, Span.slice_append]
    · simpa using ih u hu hkind

/-- Nothing in a stream begins before its front ends. -/
theorem le_start (h : TokenStream before rest ts) :
    ∀ t ∈ ts, byteLength before ≤ t.span.start := by
  induction h with
  | last _ _ spells =>
    intro t ht
    obtain rfl := List.mem_singleton.1 ht
    rw [spells.span_eq, byteLength_append]
    exact Nat.le_add_right _ _
  | cons _ _ _ spells _ ih =>
    intro u hu
    rcases List.mem_cons.1 hu with rfl | hu
    · rw [spells.span_eq, byteLength_append]
      exact Nat.le_add_right _ _
    · refine Nat.le_trans ?_ (ih u hu)
      rw [List.append_assoc, byteLength_append]
      exact Nat.le_add_right _ _

theorem start_le_stop (h : TokenStream before rest ts) :
    ∀ t ∈ ts, t.span.start ≤ t.span.stop := by
  induction h with
  | last _ _ spells =>
    intro t ht
    obtain rfl := List.mem_singleton.1 ht
    rw [spells.span_eq]
    exact Nat.le_add_right _ _
  | cons _ _ _ spells _ ih =>
    refine List.forall_mem_cons.2 ⟨?_, ih⟩
    rw [spells.span_eq]
    exact Nat.le_add_right _ _

/-- Tokens stand in order and do not overlap. -/
theorem pairwise (h : TokenStream before rest ts) :
    ts.Pairwise (fun t u => t.span.stop ≤ u.span.start) := by
  induction h with
  | last _ _ _ => exact List.pairwise_singleton _ _
  | cons _ _ _ spells behind ih =>
    refine .cons (fun u hu => ?_) ih
    refine Nat.le_trans (Nat.le_of_eq ?_) (behind.le_start u hu)
    rw [spells.span_eq, ← byteLength_append]

/-- A gap in front of a token is the filler there. -/
theorem slice_gap {before gap text : List Char} {t : Token}
    (spells : t.Spells (before ++ gap) text) (rest : List Char) :
    Span.slice ⟨byteLength before, t.span.start⟩ (before ++ (gap ++ rest))
      = gap := by
  rw [spells.span_eq, byteLength_append]
  exact Span.slice_append before gap rest

/-- Between the tokens lies filler. -/
theorem filler_of_mem_gapsFrom (h : TokenStream before rest ts) :
    ∀ g ∈ gapsFrom (byteLength before) ts,
      ∀ c ∈ g.slice (before ++ rest), IsFiller c := by
  induction h with
  | @last before gap t filler _ spells =>
    intro g hg
    obtain rfl := List.mem_singleton.1 hg
    have hslice := slice_gap spells []
    rw [List.append_nil] at hslice
    rwa [hslice]
  | @cons before gap text rest t ts filler _ _ spells _ ih =>
    intro g hg
    rcases List.mem_cons.1 hg with rfl | hg
    · rwa [slice_gap spells _]
    · have hstop : t.span.stop = byteLength (before ++ gap ++ text) := by
        rw [spells.span_eq, byteLength_append _ text]
      rw [hstop] at hg
      simpa using ih g hg

/-- **Gaps and tokens put together** are the text. -/
theorem flatMap_gapsFrom (h : TokenStream before rest ts) :
    ((gapsFrom (byteLength before) ts).zip ts).flatMap
      (fun p => p.1.slice (before ++ rest) ++ p.2.text.toList) = rest := by
  induction h with
  | @last before gap t _ _ spells =>
    have hslice := slice_gap spells []
    rw [List.append_nil] at hslice
    simp [gapsFrom, hslice, spells.text_eq]
  | @cons before gap text rest t ts _ _ _ spells _ ih =>
    have hstop : t.span.stop = byteLength (before ++ gap ++ text) := by
      rw [spells.span_eq, byteLength_append _ text]
    have heq : before ++ gap ++ text ++ rest
        = before ++ (gap ++ (text ++ rest)) := by simp
    rw [heq] at ih
    rw [gapsFrom, List.zip_cons_cons, List.flatMap_cons, hstop, ih,
      slice_gap spells _, spells.text_eq, String.toList_ofList,
      List.append_assoc]

/-- Each token but the end takes a byte. -/
theorem length_le (h : TokenStream before rest ts) :
    ts.length ≤ byteLength rest + 1 := by
  induction h with
  | last _ _ _ => simp
  | cons _ _ text_ne _ _ ih =>
    have := byteLength_pos text_ne
    simp only [List.length_cons, byteLength_append]
    omega

end TokenStream

/-! ## The tokens of a text -/

/-- **Tokens that tile a text**: they cover it, up to filler, with pieces
of itself. -/
structure Tiles (ts : List Token) (source : List Char) : Prop where
  /-- The last token, and only the last, is the end of the text. -/
  exists_eq_concat : ∃ front last, ts = front ++ [last]
    ∧ (∀ t ∈ front, t.kind ≠ .eof) ∧ last.kind = .eof
    ∧ last.span = .emptyAt (byteLength source)
  /-- Every other token is a piece of the text, and not an empty one. -/
  fits : ∀ t ∈ ts, t.kind ≠ .eof → t.span.Fits source
    ∧ t.text = String.ofList (t.span.slice source)
  /-- The tokens stand in order and do not overlap. -/
  pairwise : ts.Pairwise (fun t u => t.span.stop ≤ u.span.start)
  /-- In front of each of them there is nothing but filler. -/
  filler : ∀ g ∈ gapsFrom 0 ts, ∀ c ∈ g.slice source, IsFiller c
  /-- Gaps and tokens put together are the text. -/
  flatMap_gapsFrom : ((gapsFrom 0 ts).zip ts).flatMap
    (fun p => p.1.slice source ++ p.2.text.toList) = source
  /-- There are no more tokens than bytes, the end aside. -/
  length_le : ts.length ≤ byteLength source + 1

/-- **The tokens of a text tile it.** -/
theorem tokens_tile (source : List Char) : Tiles (tokens source) source where
  exists_eq_concat := (tokens_stream source).exists_eq_concat
  fits := (tokens_stream source).fits
  pairwise := (tokens_stream source).pairwise
  filler := (tokens_stream source).filler_of_mem_gapsFrom
  flatMap_gapsFrom := (tokens_stream source).flatMap_gapsFrom
  length_le := (tokens_stream source).length_le

end ScriptTree
