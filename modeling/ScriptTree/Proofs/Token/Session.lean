import ScriptTree.Proofs.Token.Tiling

/-!
# Working with a scanner

Whoever holds a scanner may ask for the next token, may read ahead with a
copy, and may go back to any token handed out so far to read it again as a
regular expression. A `Session` is a scanner with the tokens it has handed
out, and a `Request` is what may be asked of it next.

The scanner counts lines and columns as it goes, and takes them back from
a token when it is sent back. Whatever is asked of it, in any order, the
counts are those of the text counted afresh (`Session.run_positions`).
What carries this is that a session stays at a front of its text, and that
every token it has handed out is a piece of that text.
-/

namespace ScriptTree

/-! ## Sessions -/

/-- **What may be asked of a scanner.** -/
inductive Request where
  /-- The next token, again and again the end token at the end. -/
  | next
  /-- The next token of the stream, which ends with its first end token. -/
  | nextOfStream
  /-- All that is left of the stream, read with a copy of the scanner. -/
  | drainCopy
  /-- One of the tokens handed out so far, read again as a regular
  expression. An end token is no such token, and asking for it has no
  effect. -/
  | rescanRegex (i : Nat)
deriving Repr, DecidableEq

/-- **A scanner with the tokens handed out so far**, the first of them
first. -/
structure Session where
  /-- The scanner. -/
  scanner : Scanner
  /-- The tokens, those of its copies included. -/
  tokens : List Token
deriving Repr, DecidableEq

namespace Session

/-- The session at the front of a text. -/
def ofSource (source : List Char) : Session := ⟨.ofSource source, []⟩

/-- The session after a token has been handed out. -/
def handOut (s : Session) (step : Token × Scanner) : Session :=
  ⟨step.2, s.tokens ++ [step.1]⟩

/-- **The session after a request.** -/
def perform (s : Session) : Request → Session
  | .next => s.handOut s.scanner.next
  | .nextOfStream =>
    match s.scanner.next? with
    | some step => s.handOut step
    | none => s
  | .drainCopy => { s with tokens := s.tokens ++ s.scanner.drain.1 }
  | .rescanRegex i =>
    match s.tokens[i]? with
    | some token =>
      if token.isEof then s else s.handOut (s.scanner.rescanRegex token)
    | none => s

/-- **The session after some requests**, one after the other. -/
def run (s : Session) (requests : List Request) : Session :=
  requests.foldl perform s

end Session

/-! ## What a session keeps -/

/-- **A token that is a piece of a text**, and not an empty one unless it
is the end. -/
def Token.IsPieceOf (t : Token) (source : List Char) : Prop :=
  ∃ before text behind, source = before ++ (text ++ behind)
    ∧ t.Spells before text ∧ (t.isEof = false → text ≠ [])

/-- The tokens of a stream are pieces of its text. -/
theorem TokenStream.isPieceOf {before rest : List Char} {ts : List Token}
    (h : TokenStream before rest ts) :
    ∀ t ∈ ts, t.IsPieceOf (before ++ rest) := by
  induction h with
  | @last before gap t _ isEof spells =>
    intro u hu
    obtain rfl := List.mem_singleton.1 hu
    exact ⟨before ++ gap, [], [], by simp, spells,
      fun h => absurd isEof (by simp [h])⟩
  | @cons before gap text rest t ts _ _ text_ne spells _ ih =>
    intro u hu
    rcases List.mem_cons.1 hu with rfl | hu
    · exact ⟨before ++ gap, text, rest, by simp, spells, fun _ => text_ne⟩
    · simpa using ih u hu

namespace Scanner

variable {s : Scanner} {before : List Char}

/-- The next token is a piece of the text, and the scanner goes on from
behind it. -/
theorem next_isPieceOf (h : s.At before) :
    s.next.1.IsPieceOf s.source ∧ s.next.2.source = s.source
      ∧ ∃ behind, s.next.2.At behind := by
  obtain ⟨gap, text, hread⟩ := next_reads h
  refine ⟨⟨before ++ gap, text, s.next.2.rest, ?_, hread.spells, ?_⟩,
    hread.source_eq, _, hread.at_behind⟩
  · rw [h.source_eq, hread.rest_eq, List.append_assoc]
  · intro heof htext
    rw [hread.text_eq_nil_iff.1 htext] at heof
    exact nomatch heof

/-- So is the next token of the stream. -/
theorem next?_isPieceOf (h : s.At before) {step : Token × Scanner}
    (hstep : s.next? = some step) :
    step.1.IsPieceOf s.source ∧ step.2.source = s.source
      ∧ ∃ behind, step.2.At behind := by
  obtain ⟨hpiece, hsource, behind, hbehind⟩ := next_isPieceOf h
  unfold next? at hstep
  generalize s.next = step' at hpiece hsource hbehind hstep
  split at hstep
  · exact nomatch hstep
  · obtain rfl := Option.some.inj hstep
    refine ⟨hpiece, ?_⟩
    dsimp only
    split
    · exact ⟨hsource, behind, hbehind.source_eq, hbehind.position_eq⟩
    · exact ⟨hsource, behind, hbehind⟩

/-- So is every token of what is left of the stream. -/
theorem drain_isPieceOf (h : s.At before) :
    ∀ t ∈ s.drain.1, t.IsPieceOf s.source := by
  unfold drain
  split
  · exact fun _ ht => absurd ht List.not_mem_nil
  · obtain ⟨ts, hts, hstream⟩ := s.drainFrom_stream [] h
    rw [hts, h.source_eq]
    exact hstream.isPieceOf

/-- A piece of the text read again as a regular expression is one too. -/
theorem rescanRegex_isPieceOf {t : Token} (ht : t.IsPieceOf s.source)
    (heof : t.isEof = false) :
    (s.rescanRegex t).1.IsPieceOf s.source
      ∧ (s.rescanRegex t).2.source = s.source
      ∧ ∃ behind, (s.rescanRegex t).2.At behind := by
  obtain ⟨front, text, behind, hs, hspells, hne⟩ := ht
  obtain ⟨text', hne', hspells', hat, hsource⟩ :=
    rescanRegex_reads hs hspells (hne heof)
  refine ⟨⟨front, text', (s.rescanRegex t).2.rest, ?_, hspells',
    fun _ => hne'⟩, hsource, _, hat⟩
  rw [← hsource, hat.source_eq, List.append_assoc]

end Scanner

namespace Session

variable {source : List Char} {s : Session}

/-- **A session in a text**: what it keeps, whatever is asked of it. -/
structure In (s : Session) (source : List Char) : Prop where
  /-- The scanner reads the text. -/
  source_eq : s.scanner.source = source
  /-- It stands behind a front of the text. -/
  at_front : ∃ before, s.scanner.At before
  /-- The tokens handed out are pieces of the text. -/
  isPieceOf : ∀ t ∈ s.tokens, t.IsPieceOf source

theorem ofSource_in (source : List Char) : (ofSource source).In source :=
  ⟨rfl, ⟨[], Scanner.ofSource_at source⟩,
    fun _ ht => absurd ht List.not_mem_nil⟩

/-- To hand out a piece of the text keeps a session in it. -/
theorem In.handOut (h : s.In source) {step : Token × Scanner}
    (hstep : step.1.IsPieceOf s.scanner.source
      ∧ step.2.source = s.scanner.source ∧ ∃ behind, step.2.At behind) :
    (s.handOut step).In source := by
  obtain ⟨hpiece, hsource, hat⟩ := hstep
  rw [h.source_eq] at hpiece hsource
  refine ⟨hsource, hat, fun t ht => ?_⟩
  rcases List.mem_append.1 ht with ht | ht
  · exact h.isPieceOf t ht
  · obtain rfl := List.mem_singleton.1 ht
    exact hpiece

/-- **No request leads out of the text.** -/
theorem In.perform (h : s.In source) (request : Request) :
    (s.perform request).In source := by
  obtain ⟨before, hat⟩ := h.at_front
  cases request with
  | next => exact h.handOut (Scanner.next_isPieceOf hat)
  | nextOfStream =>
    simp only [Session.perform]
    cases hnext : s.scanner.next? with
    | none => exact h
    | some step =>
      exact h.handOut (Scanner.next?_isPieceOf hat hnext)
  | drainCopy =>
    refine ⟨h.source_eq, h.at_front, fun t ht => ?_⟩
    rcases List.mem_append.1 ht with ht | ht
    · exact h.isPieceOf t ht
    · exact h.source_eq ▸ Scanner.drain_isPieceOf hat t ht
  | rescanRegex i =>
    simp only [Session.perform]
    cases htoken : s.tokens[i]? with
    | none => exact h
    | some token =>
      dsimp only
      split
      · exact h
      · rename_i heof
        refine h.handOut (Scanner.rescanRegex_isPieceOf ?_
          (Bool.eq_false_iff.2 heof))
        rw [h.source_eq]
        exact h.isPieceOf token (List.mem_of_getElem? htoken)

/-- **No requests lead out of the text.** -/
theorem In.run (h : s.In source) (requests : List Request) :
    (s.run requests).In source := by
  induction requests generalizing s with
  | nil => exact h
  | cons request requests ih => exact ih (h.perform request)

end Session

/-! ## Positions -/

/-- **A position that is right for an offset of a text**: what counting
afresh finds there, all of which fits into words of 32 bits. -/
structure Position.IsRight (p : Position) (source : List Char)
    (offset : Nat) : Prop where
  /-- It is the position of the offset. -/
  eq_positionAt : p = positionAt source offset
  /-- It tells how many lines and columns there are before the offset. -/
  eq_counted : ∃ before rest, source = before ++ rest
    ∧ byteLength before = offset ∧ p = .counted before
  /-- The line fits into a word. -/
  line_lt : p.line < UInt32.size
  /-- The column fits into a word. -/
  column_lt : p.column < UInt32.size

theorem length_le_byteLength (text : List Char) :
    text.length ≤ byteLength text := by
  induction text with
  | nil => exact Nat.le_refl 0
  | cons c text ih =>
    have := Char.utf8Size_pos c
    rw [List.length_cons, byteLength_cons]
    omega

/-- Behind the front of a text the position is found by cutting it
there. -/
theorem positionAt_append (before rest : List Char) :
    positionAt (before ++ rest) (byteLength before) = .after before := by
  have hcut : splitAtByte? (before ++ rest) (byteLength before)
      = some (before, rest) := splitAtByte?_eq_some_iff.2 ⟨rfl, rfl⟩
  rw [positionAt, hcut]

/-- The fronts of a text that is short enough are counted in words. -/
theorem Position.counted_fits {source before rest : List Char}
    (hs : source = before ++ rest)
    (hshort : byteLength source < UInt32.size - 1) :
    (Position.counted before).Fits := by
  have hlength : before.length ≤ byteLength source := by
    refine Nat.le_trans (length_le_byteLength before) ?_
    rw [hs, byteLength_append]
    exact Nat.le_add_right _ _
  have hline : before.count '\n' ≤ before.length := List.count_le_length
  have hcolumn : (before.reverse.takeWhile (· ≠ '\n')).length
      ≤ before.length := by
    simpa using (List.takeWhile_prefix (· ≠ '\n')
      (l := before.reverse)).length_le
  constructor
  · show before.count '\n' + 1 < UInt32.size
    omega
  · show (before.reverse.takeWhile (· ≠ '\n')).length + 1 < UInt32.size
    omega

/-- So they end where they are counted to end. -/
theorem Position.after_eq_counted {source before rest : List Char}
    (hs : source = before ++ rest)
    (hshort : byteLength source < UInt32.size - 1) :
    Position.after before = .counted before :=
  inWords_eq_self_iff.2 (counted_fits hs hshort)

/-- **The end of a front of a text** has a position that is right, if the
text is short enough. -/
theorem Position.after_isRight {source before rest : List Char}
    (hs : source = before ++ rest)
    (hshort : byteLength source < UInt32.size - 1) :
    (Position.after before).IsRight source (byteLength before) := by
  have hfits := counted_fits hs hshort
  have hcounted := after_eq_counted hs hshort
  subst hs
  exact ⟨(positionAt_append before rest).symm,
    ⟨before, rest, rfl, rfl, hcounted⟩, hcounted ▸ hfits.1,
    hcounted ▸ hfits.2⟩

/-- **Positions counted on the way are right**, wherever the requests have
led: that of the scanner for its offset, and that of each token handed out
for the offset at which it begins. -/
theorem Session.run_positions {source : List Char}
    (hshort : byteLength source < UInt32.size - 1) (requests : List Request) :
    let s := (Session.ofSource source).run requests
    s.scanner.position.IsRight source s.scanner.position.offset
      ∧ ∀ t ∈ s.tokens, t.position.IsRight source t.span.start := by
  intro s
  have hin : s.In source := (ofSource_in source).run requests
  refine ⟨?_, fun t ht => ?_⟩
  · obtain ⟨before, hat⟩ := hin.at_front
    rw [hat.position_eq]
    exact Position.after_isRight (hin.source_eq.symm.trans hat.source_eq)
      hshort
  · obtain ⟨before, text, behind, hs, hspells, _⟩ := hin.isPieceOf t ht
    rw [hspells.position_eq, hspells.span_eq]
    exact Position.after_isRight hs hshort

/-- A comment and a string of more than one line, with wide characters,
and ways back over them. -/
theorem Session.run_positions_backwards :
    let s := (Session.ofSource "/*ä\n*/ a\n/é/".toList).run
      [.next, .next, .drainCopy, .next, .nextOfStream, .rescanRegex 1,
        .next, .rescanRegex 0]
    s.scanner.position = ⟨1, 4, 4⟩
      ∧ s.scanner.position.IsRight "/*ä\n*/ a\n/é/".toList 4
      ∧ ∀ t ∈ s.tokens,
        t.position.IsRight "/*ä\n*/ a\n/é/".toList t.span.start :=
  ⟨by decide +kernel, run_positions (by decide) _⟩

end ScriptTree
