import ScriptTree.Proofs.Text.Row
import ScriptTree.Proofs.Token.Reading
import ScriptTree.Token.Significant

/-!
# On the way to the next token of the grammar

Between two tokens of the grammar the scanner passes comments and line
breaks. They stand in a row, and the comments among them cover what lies
between the two tokens: a line break is filler itself, so whoever keeps
the comments keeps everything that is lost otherwise.
-/

namespace ScriptTree

/-- **A token in its place**: it holds the text between two offsets. -/
def Token.Occupies (source : List Char) (t : Token) (b e : Nat) : Prop :=
  t.span = ⟨b, e⟩ ∧ t.span.Fits source
    ∧ t.text = String.ofList (t.span.slice source)

/-- The spans of the comments among some tokens. -/
def commentSpans (ts : List Token) : List Span :=
  (ts.filter (fun t => t.kind = .comment)).map Token.span

/-- A piece of a text that is not empty is a token in its place. -/
theorem Token.Spells.occupies {source before text behind : List Char}
    {t : Token} (h : t.Spells before text)
    (hs : source = before ++ (text ++ behind)) (hne : text ≠ []) :
    t.Occupies source (byteLength before)
      (byteLength before + byteLength text) := by
  have hpos := byteLength_pos hne
  subst hs
  refine ⟨h.span_eq, ⟨?_, ?_, ?_⟩, ?_⟩
  · rw [h.span_eq]
    exact isCut_append _ _
  · rw [h.span_eq, ← List.append_assoc, ← byteLength_append]
    exact isCut_append _ _
  · rw [h.span_eq]
    show byteLength _ < byteLength _ + _
    omega
  · rw [h.text_eq, h.span_eq, Span.slice_append]

namespace Scanner

/-- **What the step to the next token of the grammar finds**: extras in a
row, with nothing but filler beside the comments among them, and behind
them the token with the text `text`. -/
structure Finds (s : Scanner) (before : List Char) (extras : List Token)
    (front text : List Char) (t : Token) (s' : Scanner) : Prop where
  /-- What is passed stands between the scanner and the token. -/
  row : Row (Token.Occupies s.source) (byteLength before)
    (byteLength front) extras
  /-- It is no part of the grammar. -/
  isExtra : ∀ x ∈ extras, x.kind.isExtra = true
  /-- Its comments leave out filler alone. -/
  covers : Covers (commentSpans extras) s.source (byteLength before)
    (byteLength front)
  /-- The token stands behind it. -/
  le : byteLength before ≤ byteLength front
  /-- The token is a piece of the text. -/
  spells : t.Spells front text
  /-- It is one of the grammar. -/
  isExtra_token : t.kind.isExtra = false
  /-- The scanner stands behind the token. -/
  at_behind : s'.At (front ++ text)
  /-- It still reads the same text. -/
  source_eq : s'.source = s.source
  /-- Only the end of the text is empty. -/
  text_eq_nil_iff : text = [] ↔ t.isEof = true
  /-- The end of the text is found where nothing is left. -/
  rest_of_eof : t.isEof = true → s'.rest = []

/-- Filler in front of a token needs no comment. -/
theorem Reads.covers_gap {s s' : Scanner} {before gap text : List Char}
    {t : Token} (hat : s.At before) (h : s.Reads before gap text t s')
    (spans : List Span) :
    Covers spans s.source (byteLength before)
      (byteLength (before ++ gap)) := by
  rw [hat.source_eq, h.rest_eq, byteLength_append]
  exact (Covers.of_filler h.filler).mono (by simp)

/-- An extra is a comment, or a line break and so filler. -/
theorem Reads.covers_extra {s s' : Scanner} {before gap text : List Char}
    {t : Token} (hat : s.At before) (h : s.Reads before gap text t s')
    (hextra : t.kind.isExtra = true) :
    Covers (commentSpans [t]) s.source (byteLength (before ++ gap))
      (byteLength (before ++ gap ++ text)) := by
  have hs : s.source = (before ++ gap) ++ (text ++ s'.rest) := by
    rw [hat.source_eq, h.rest_eq, List.append_assoc]
  have hcases : t.kind = .comment ∨ t.kind = .lineBreak := by
    cases hk : t.kind <;> simp_all [TokenKind.isExtra]
  rw [byteLength_append _ text]
  rcases hcases with hk | hk
  · have hspan : commentSpans [t] = [t.span] := by simp [commentSpans, hk]
    have hcut : IsCut s.source t.span.stop := by
      rw [h.spells.span_eq, hs, ← List.append_assoc, ← byteLength_append]
      exact isCut_append _ _
    have hcovers := Covers.of_isCut hcut
    rw [hspan]
    rwa [h.spells.span_eq] at hcovers ⊢
  · rw [hs]
    refine (Covers.of_filler ?_).mono (by simp)
    rw [h.of_lineBreak hk]
    exact fun c hc => .inl (List.mem_singleton.1 hc)

/-- A token that is no extra is found at once. -/
theorem Reads.finds {s s' : Scanner} {before gap text : List Char}
    {t : Token} (hat : s.At before) (h : s.Reads before gap text t s')
    (hextra : t.kind.isExtra = false) :
    s.Finds before [] (before ++ gap) text t s' where
  row := .nil
  isExtra _ hx := nomatch hx
  covers := h.covers_gap hat _
  le := by
    rw [byteLength_append]
    exact Nat.le_add_right _ _
  spells := h.spells
  isExtra_token := hextra
  at_behind := h.at_behind
  source_eq := h.source_eq
  text_eq_nil_iff := h.text_eq_nil_iff
  rest_of_eof := h.rest_of_eof

/-- **An extra in front** of what is found is passed on the way to it. -/
theorem Reads.finds_cons {s s₁ s' : Scanner}
    {before gap text front text' : List Char} {t u : Token}
    {extras : List Token} (hat : s.At before)
    (h : s.Reads before gap text t s₁) (hextra : t.kind.isExtra = true)
    (hfinds : s₁.Finds (before ++ gap ++ text) extras front text' u s') :
    s.Finds before (t :: extras) front text' u s' := by
  have hs : s.source = (before ++ gap) ++ (text ++ s₁.rest) := by
    rw [hat.source_eq, h.rest_eq, List.append_assoc]
  -- An extra is not the end of the text, so it is not empty.
  have hne : text ≠ [] := by
    intro h0
    have heof := h.text_eq_nil_iff.1 h0
    cases hk : t.kind <;> simp_all [Token.isEof, TokenKind.isExtra]
  have hpos := byteLength_pos hne
  have hle := hfinds.le
  rw [byteLength_append _ text] at hle
  have hgap : byteLength before ≤ byteLength (before ++ gap) := by
    rw [byteLength_append]
    exact Nat.le_add_right _ _
  refine ⟨?_, ?_, ?_, by omega, hfinds.spells, hfinds.isExtra_token,
    hfinds.at_behind, hfinds.source_eq.trans h.source_eq,
    hfinds.text_eq_nil_iff, hfinds.rest_of_eof⟩
  · refine ⟨_, _, hgap, by omega, hle, h.spells.occupies hs hne, ?_⟩
    rw [← byteLength_append, ← h.source_eq]
    exact hfinds.row
  · intro x hx
    rcases List.mem_cons.1 hx with rfl | hx
    · exact hextra
    · exact hfinds.isExtra x hx
  · have hcons : commentSpans (t :: extras)
        = commentSpans [t] ++ commentSpans extras := by
      rw [commentSpans, commentSpans, commentSpans, ← List.map_append,
        ← List.filter_append, List.singleton_append]
    have hfront := (h.covers_extra hat hextra).mono
      (fun x => List.mem_append_left (commentSpans extras))
    have hbehind := hfinds.covers.mono
      (fun x => List.mem_append_right (commentSpans [t]))
    rw [h.source_eq] at hbehind
    rw [hcons]
    exact ((h.covers_gap hat _).trans hfront).trans hbehind

theorem nextSignificantFrom_finds (s : Scanner) (found : List Token)
    {before : List Char} (h : s.At before) :
    ∃ extras front text,
      (s.nextSignificantFrom found).extras = found.reverse ++ extras
        ∧ s.Finds before extras front text
          (s.nextSignificantFrom found).token
          (s.nextSignificantFrom found).scanner := by
  fun_induction nextSignificantFrom s found generalizing before with
  | case1 s found step hextra =>
    rename_i ih
    obtain ⟨gap, text, hread⟩ := next_reads h
    obtain ⟨extras, front, text', hextras, hfinds⟩ := ih hread.at_behind
    refine ⟨s.next.1 :: extras, front, text', ?_,
      hread.finds_cons h hextra hfinds⟩
    rw [hextras, List.reverse_cons, List.append_assoc,
      List.singleton_append]
  | case2 s found step =>
    rename_i hextra
    obtain ⟨gap, text, hread⟩ := next_reads h
    exact ⟨[], before ++ gap, text, (List.append_nil _).symm,
      hread.finds h (Bool.eq_false_iff.2 hextra)⟩

/-- **The step to the next token of the grammar.** -/
theorem nextSignificant_finds {s : Scanner} {before : List Char}
    (h : s.At before) :
    ∃ front text, s.Finds before s.nextSignificant.extras front text
      s.nextSignificant.token s.nextSignificant.scanner := by
  obtain ⟨extras, front, text, hextras, hfinds⟩ :=
    s.nextSignificantFrom_finds [] h
  rw [List.reverse_nil, List.nil_append] at hextras
  refine ⟨front, text, ?_⟩
  rw [nextSignificant, hextras]
  exact hfinds

end Scanner

end ScriptTree
