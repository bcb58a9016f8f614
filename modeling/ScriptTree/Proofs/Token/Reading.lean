import ScriptTree.Proofs.Text.Cut
import ScriptTree.Token.Scanner

/-!
# What reading a token does

A scanner stands **at** a place if what is before the place and what is
still to be read make up its text. Reading a token keeps it so: behind
some filler the scanner finds a piece of the text, and the token it hands
over is that piece, with its place (`Scanner.next_reads`). The piece is
empty at the end of the text and nowhere else.

The rules of the single token classes play no part in this. They only
say how many characters the token has after its first.
-/

namespace ScriptTree

theorem Position.after_advanceBy (a b : List Char) :
    (Position.after a).advanceBy b = Position.after (a ++ b) := by
  rw [← start_advanceBy, ← start_advanceBy, advanceBy_append]

@[simp] theorem Position.after_offset (a : List Char) :
    (Position.after a).offset = byteLength a := rfl

/-- **A token that is a piece of a text**: the piece `text` behind the
front `before`. -/
structure Token.Spells (t : Token) (before text : List Char) : Prop where
  /-- Its text is the piece. -/
  text_eq : t.text = String.ofList text
  /-- Its span is where the piece lies. -/
  span_eq : t.span = ⟨byteLength before, byteLength before + byteLength text⟩
  /-- Its position is where the piece begins. -/
  position_eq : t.position = .after before

/-! ## No token is taken for the end of the text -/

namespace Lexeme

@[simp] theorem blockComment_kind (cs : List Char) :
    (blockComment cs).kind = .comment := by
  unfold blockComment
  split <;> rfl

@[simp] theorem template_kind (cs : List Char) :
    (template cs).kind = .template := by
  unfold template
  split <;> rfl

/-- **What stands at the front of a text is a token of its own**: neither
the end of the text nor a line break. -/
theorem atFront_kind_ne (slashDivides : Bool) (c : Char) (cs : List Char) :
    (atFront slashDivides c cs).kind ≠ .eof
      ∧ (atFront slashDivides c cs).kind ≠ .lineBreak := by
  have hword : ∀ c cs, (word c cs).kind ≠ .eof
      ∧ (word c cs).kind ≠ .lineBreak := by
    intro c cs
    unfold word
    dsimp only
    split <;> exact ⟨by simp, by simp⟩
  unfold atFront
  split
  · simp
  · simp
  · split
    · simp [regex]
    · split
      · simp
      · split
        · simp [string]
        · split
          · simp
          · split
            · simp
            · split
              · exact hword _ _
              · simp [stray]

end Lexeme

namespace Scanner

/-- **A scanner at a place**: the front `before` and what is still to be
read make up its text. -/
structure At (s : Scanner) (before : List Char) : Prop where
  /-- Nothing of the text is missing. -/
  source_eq : s.source = before ++ s.rest
  /-- The place is the end of the front. -/
  position_eq : s.position = .after before

theorem ofSource_at (source : List Char) : (ofSource source).At [] :=
  ⟨rfl, rfl⟩

/-! ## One step -/

/-- Blanks and line breaks that do not matter are filler. -/
theorem skipBlanks_eq (matters : List Char → Bool) (p : Position)
    (cs : List Char) :
    ∃ gap, (∀ c ∈ gap, IsFiller c) ∧ cs = gap ++ (skipBlanks matters p cs).2
      ∧ (skipBlanks matters p cs).1 = p.advanceBy gap := by
  induction cs generalizing p with
  | nil => exact ⟨[], by simp, rfl, rfl⟩
  | cons c cs ih =>
    rw [skipBlanks]
    split
    · rename_i hc
      obtain ⟨gap, hgap, hrest, hpos⟩ := ih (p.advance c)
      refine ⟨c :: gap, ?_, ?_, hpos⟩
      · intro d hd
        rcases List.mem_cons.1 hd with rfl | hd
        · simp only [Bool.or_eq_true, Bool.and_eq_true,
            decide_eq_true_eq] at hc
          exact hc.elim .inr (fun h => .inl h.1)
        · exact hgap d hd
      · rw [List.cons_append, ← hrest]
    · exact ⟨[], by simp, rfl, rfl⟩

theorem settle_at {s : Scanner} {before : List Char} (h : s.At before) :
    ∃ gap, (∀ c ∈ gap, IsFiller c) ∧ s.rest = gap ++ s.settle.rest
      ∧ s.settle.At (before ++ gap) := by
  obtain ⟨gap, hgap, hrest, hpos⟩ :=
    skipBlanks_eq s.breakMatters s.position s.rest
  refine ⟨gap, hgap, hrest, ?_, ?_⟩
  · show s.source = _
    rw [h.source_eq, List.append_assoc]
    exact congrArg (before ++ ·) hrest
  · show (skipBlanks s.breakMatters s.position s.rest).1 = _
    rw [hpos, h.position_eq, Position.after_advanceBy]

theorem take_spells {s : Scanner} {before : List Char} (h : s.At before)
    (kind : TokenKind) (n : Nat) (error : Option LexError) :
    (s.take kind n error).1.Spells before (s.rest.take n) := by
  refine ⟨rfl, ?_, h.position_eq⟩
  simp only [take, Position.advanceBy_offset, h.position_eq,
    Position.after_offset]

theorem take_at {s : Scanner} {before : List Char} (h : s.At before)
    (kind : TokenKind) (n : Nat) (error : Option LexError) :
    (s.take kind n error).2.At (before ++ s.rest.take n) := by
  refine ⟨?_, ?_⟩
  · show s.source = _
    rw [h.source_eq, take_rest, List.append_assoc, List.take_append_drop]
  · show s.position.advanceBy _ = _
    rw [h.position_eq, Position.after_advanceBy]

theorem At.remember {s : Scanner} {before : List Char} (h : s.At before)
    (kind : TokenKind) : (s.remember kind).At before := by
  unfold Scanner.remember
  split
  · exact h
  · exact ⟨h.source_eq, h.position_eq⟩

@[simp] theorem remember_source (s : Scanner) (kind : TokenKind) :
    (s.remember kind).source = s.source := by
  unfold remember
  split <;> rfl

/-- **What a step from one scanner to another reads**: behind the front
`before` some filler, and then a token with the text `text`. -/
structure Reads (s : Scanner) (before gap text : List Char) (t : Token)
    (s' : Scanner) : Prop where
  /-- What is passed over is filler. -/
  filler : ∀ c ∈ gap, IsFiller c
  /-- Nothing is lost between the two scanners. -/
  rest_eq : s.rest = gap ++ (text ++ s'.rest)
  /-- The token is the piece of the text behind the filler. -/
  spells : t.Spells (before ++ gap) text
  /-- The scanner stands behind the token. -/
  at_behind : s'.At (before ++ gap ++ text)
  /-- It still reads the same text. -/
  source_eq : s'.source = s.source
  /-- Only the end of the text is empty. -/
  text_eq_nil_iff : text = [] ↔ t.isEof = true
  /-- The end of the text is found where nothing is left. -/
  rest_of_eof : t.isEof = true → s'.rest = []
  /-- A line break is one. -/
  of_lineBreak : t.kind = .lineBreak → text = ['\n']

/-- **The token at a scanner's place.** -/
theorem read_reads {s : Scanner} {before : List Char} (h : s.At before) :
    ∃ text, s.Reads before [] text s.read.1 s.read.2 := by
  have htake : ∀ kind n error,
      s.rest = [] ++ (s.rest.take n ++ (s.take kind n error).2.rest) := by
    intro kind n error
    rw [take_rest, List.take_append_drop, List.nil_append]
  unfold read
  split
  · -- Nothing is left.
    rename_i hs
    refine ⟨s.rest.take 0, by simp, htake .eof 0 none, ?_, ?_, rfl, ?_, ?_, ?_⟩
    · simpa using take_spells h .eof 0 none
    · simpa using take_at h .eof 0 none
    · simp [take, Token.isEof]
    · intro _
      rw [take_rest, hs, List.drop_nil]
    · simp
  · -- A line break that matters: the others have been passed over.
    rename_i hs
    refine ⟨s.rest.take 1, by simp, htake .lineBreak 1 none, ?_, ?_, rfl, ?_,
      ?_, ?_⟩
    · simpa using take_spells h .lineBreak 1 none
    · rw [List.append_nil]
      have hat := take_at h .lineBreak 1 none
      exact ⟨hat.source_eq, hat.position_eq⟩
    · simp [take, Token.isEof, hs]
    · simp [take, Token.isEof]
    · intro _
      rw [hs]
      rfl
  · -- Anything else begins a lexeme.
    rename_i c cs _ hs
    have hkind := Lexeme.atFront_kind_ne
      (s.previous.any TokenKind.canEndExpression) c cs
    dsimp only
    generalize Lexeme.atFront (s.previous.any TokenKind.canEndExpression) c
      cs = lexeme at hkind ⊢
    refine ⟨s.rest.take (lexeme.extent + 1), by simp, ?_, ?_, ?_, ?_, ?_,
      ?_, ?_⟩
    · simp
    · simpa using take_spells h lexeme.kind (lexeme.extent + 1) lexeme.error
    · simpa using (take_at h lexeme.kind (lexeme.extent + 1)
        lexeme.error).remember lexeme.kind
    · simp [take]
    · simp [Token.isEof, hkind.1, hs]
    · simp [Token.isEof, hkind.1]
    · simp [hkind.2]

/-- **The next token**: some filler, and then a piece of the text. -/
theorem next_reads {s : Scanner} {before : List Char} (h : s.At before) :
    ∃ gap text, s.Reads before gap text s.next.1 s.next.2 := by
  obtain ⟨gap, hgap, hrest, hat⟩ := settle_at h
  obtain ⟨text, hread⟩ := read_reads hat
  refine ⟨gap, text, hgap, ?_, ?_, ?_, hread.source_eq,
    hread.text_eq_nil_iff, hread.rest_of_eof, hread.of_lineBreak⟩
  · rw [hrest, hread.rest_eq, List.nil_append]
    rfl
  · simpa only [next, List.append_nil] using hread.spells
  · simpa only [next, List.append_nil] using hread.at_behind

/-- **A token read again as a regular expression** begins where it began,
and is as little empty as before. -/
theorem rescanRegex_reads {s : Scanner} {t : Token}
    {before text behind : List Char}
    (hs : s.source = before ++ (text ++ behind)) (ht : t.Spells before text)
    (htext : text ≠ []) :
    ∃ text', text' ≠ [] ∧ (s.rescanRegex t).1.Spells before text'
      ∧ (s.rescanRegex t).2.At (before ++ text')
      ∧ (s.rescanRegex t).2.source = s.source := by
  have hsplit : splitAtByte? s.source t.span.start
      = some (before, text ++ behind) := by
    rw [splitAtByte?_eq_some_iff, ht.span_eq]
    exact ⟨hs, rfl⟩
  have hat : ({ s with position := t.position, rest := text ++ behind }
      : Scanner).At before :=
    ⟨hs, ht.position_eq⟩
  unfold rescanRegex
  simp only [hsplit]
  generalize Lexeme.regex _ = lexeme
  have hspells := take_spells hat .regex (lexeme.extent + 1) lexeme.error
  have hbehind := take_at hat .regex (lexeme.extent + 1) lexeme.error
  refine ⟨(text ++ behind).take (lexeme.extent + 1), ?_, hspells,
    ⟨hbehind.source_eq, hbehind.position_eq⟩, rfl⟩
  cases text with
  | nil => exact absurd rfl htext
  | cons c text => simp

end Scanner

end ScriptTree
