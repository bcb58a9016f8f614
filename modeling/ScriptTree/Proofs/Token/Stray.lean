import ScriptTree.Proofs.Token.Delimited

/-!
# Runs of stray characters

A character that no token begins with is a stray one, and a run of them is
to be one token. Three classes of characters have a say in this: those that
begin a token, those that end a run, and those the scanner passes over
between tokens.

The first two agree: a token is invalid exactly if no token begins with its
first character (`Lexeme.atFront_kind_eq_invalid_iff`), and white space
apart, just such characters go on with a run. The last two do not agree. A
run ends before any white space, and some of it, the **wide** one, is no
blank: the scanner stops in front of it, and takes it for the beginning of
the next run. So two invalid tokens stand side by side exactly where wide
white space is right behind the first of them (`tokens_stray`).
-/

namespace ScriptTree

/-! ## Classes of characters -/

/-- **Whether some token begins with the character**, or a name or a number
goes on with it. -/
def beginsToken (c : Char) : Bool :=
  isWordChar c || markChars.contains c

/-- **Wide white space**: the scanner does not pass over it, and it is no
line break either. -/
def isWideSpace (c : Char) : Bool :=
  isWhiteSpace c && !isBlank c && c ≠ '\n'

variable {c : Char} {cs : List Char}

theorem endsStray_eq (c : Char) :
    endsStray c = (beginsToken c || isWhiteSpace c) :=
  Bool.or_right_comm _ _ _

/-- The code points of white space. -/
def whiteSpaceCodes : List Nat :=
  List.range' 0x09 5 ++ List.range' 0x2000 11
    ++ [0x20, 0x85, 0xa0, 0x1680, 0x2028, 0x2029, 0x202f, 0x205f, 0x3000]

theorem mem_whiteSpaceCodes (h : isWhiteSpace c = true) :
    c.toNat ∈ whiteSpaceCodes := by
  simp only [isWhiteSpace, Bool.or_eq_true, Bool.and_eq_true,
    decide_eq_true_eq] at h
  simp only [whiteSpaceCodes, List.mem_append, List.mem_range'_1,
    List.mem_cons, List.not_mem_nil, or_false]
  omega

/-- **No token begins with white space.** -/
theorem beginsToken_of_isWhiteSpace (h : isWhiteSpace c = true) :
    beginsToken c = false := by
  have hcodes : whiteSpaceCodes.all
      (fun n => !beginsToken (Char.ofNat n)) = true := by
    decide
  have hc := List.all_eq_true.1 hcodes _ (mem_whiteSpaceCodes h)
  rwa [Char.ofNat_toNat, Bool.not_eq_true'] at hc

theorem isWideSpace_iff : isWideSpace c = true
    ↔ isWhiteSpace c = true ∧ isBlank c = false ∧ c ≠ '\n' := by
  simp [isWideSpace, and_assoc]

/-! ## Stray lexemes -/

namespace Punctuator

/-- A mark begins with one of the characters for it. -/
theorem longest?_eq_none (h : markChars.contains c = false) :
    longest? (c :: cs) = none := by
  have hheads : spelled.all (·.1.head?.any markChars.contains) = true := by
    decide
  refine Option.map_eq_none_iff.2 (List.find?_eq_none.2 (fun s hs hmark => ?_))
  obtain ⟨d, hd, hcontains⟩ :=
    (Option.any_eq_true _ _).1 (List.all_eq_true.1 hheads s hs)
  obtain ⟨rest, hrest⟩ := List.isPrefixOf_iff_prefix.1 hmark
  have hhead : (c :: cs).head? = some d := by
    rw [← hrest, List.head?_append, hd]
    rfl
  obtain rfl : c = d := Option.some.inj hhead
  exact Bool.noConfusion (h.symm.trans hcontains)

/-- Such a character alone is a mark, unless it is a quote. -/
theorem longest?_ne_none (h : markChars.contains c = true)
    (hquote : ['"', '\x27', '\x60'].contains c = false) :
    longest? (c :: cs) ≠ none := by
  have hmarks : markChars.all (fun d => ['"', '\x27', '\x60'].contains d
      || spelled.any (·.1 = [d])) = true := by
    decide
  have hmark := List.all_eq_true.1 hmarks c (List.contains_iff_mem.1 h)
  rw [hquote, Bool.false_or, List.any_eq_true] at hmark
  obtain ⟨s, hs, hone⟩ := hmark
  intro hnone
  have hnot := List.find?_eq_none.1 (Option.map_eq_none_iff.1 hnone) s hs
  simp [of_decide_eq_true hone] at hnot

end Punctuator

namespace Lexeme

/-- **A character no token begins with** begins a run of stray ones. -/
theorem atFront_eq_stray (slashDivides : Bool) (h : beginsToken c = false) :
    atFront slashDivides c cs = stray c cs := by
  obtain ⟨hword, hmark⟩ : isWordChar c = false
      ∧ markChars.contains c = false := Bool.or_eq_false_iff.1 h
  have hne : ∀ d ∈ markChars, c ≠ d := by
    rintro d hd rfl
    exact Bool.noConfusion (hmark.symm.trans (List.contains_iff_mem.2 hd))
  have hslash : c ≠ '/' := hne '/' (by decide)
  have hquote : c ≠ '"' ∧ c ≠ '\x27' :=
    ⟨hne '"' (by decide), hne '\x27' (by decide)⟩
  have hback : c ≠ '\x60' := hne '\x60' (by decide)
  obtain ⟨hdigit, hstart⟩ : c.isDigit = false ∧ isWordStart c = false := by
    simp only [isWordChar, Char.isAlphanum, Bool.or_eq_false_iff] at hword
    simp [isWordStart, hword]
  unfold atFront
  split
  · exact absurd rfl hslash
  · exact absurd rfl hslash
  · simp [hslash, Punctuator.longest?_eq_none hmark, hquote, hback, hdigit,
      hstart]

/-- **A lexeme is invalid** exactly if no token begins with its first
character. -/
theorem atFront_kind_eq_invalid_iff (slashDivides : Bool) (c : Char)
    (cs : List Char) :
    (atFront slashDivides c cs).kind = .invalid
      ↔ beginsToken c = false := by
  refine ⟨fun hkind => ?_, fun h => ?_⟩
  · refine Bool.eq_false_iff.2 (fun hbegins => ?_)
    revert hkind
    unfold atFront
    split
    · simp
    · simp
    · split
      · simp [regex]
      split
      · simp
      rename_i hmark
      split
      · simp [string]
      split
      · simp
      split
      · simp
      split
      · unfold word
        dsimp only
        split <;> simp
      rename_i hquote hback hdigit hstart
      -- A character of a word begins one or is a digit; a mark is found.
      refine absurd hmark (Punctuator.longest?_ne_none ?_ ?_)
      · simp_all [beginsToken, isWordChar, isWordStart, Char.isAlphanum]
      · simp_all
  · rw [atFront_eq_stray slashDivides h]
    rfl

end Lexeme

/-! ## Stray tokens -/

namespace Scanner

variable {s : Scanner} {before : List Char}

/-- **An invalid token right at a scanner's place** is found exactly if no
token begins with the character there, and the scanner does not pass it
over. -/
theorem next_invalid_iff (hat : s.At before) :
    (s.next.1.kind = .invalid ∧ s.next.1.span.start = byteLength before)
      ↔ ∃ c cs, s.rest = c :: cs ∧ beginsToken c = false
        ∧ isBlank c = false ∧ c ≠ '\n' := by
  obtain ⟨gap, -, hgap, hplace⟩ := settle_at hat
  obtain ⟨text, hread⟩ := read_reads hplace
  constructor
  · rintro ⟨hkind, hstart⟩
    obtain ⟨c, cs, hrest, hblank, hline⟩ := exists_settle_rest
      (s := s) (by simp [Token.isEof, hkind]) (by simp [hkind])
    obtain rfl : gap = [] := by
      have hspan : s.next.1.span.start = byteLength (before ++ gap ++ []) :=
        congrArg Span.start hread.spells.span_eq
      rw [hstart, List.append_nil, byteLength_append] at hspan
      cases gap with
      | nil => rfl
      | cons d gap =>
        have := Char.utf8Size_pos d
        rw [byteLength_cons] at hspan
        omega
    refine ⟨c, cs, hgap.trans hrest, ?_, hblank, hline⟩
    rw [next, read_cons hrest hline, take_kind] at hkind
    exact (Lexeme.atFront_kind_eq_invalid_iff _ c cs).1 hkind
  · rintro ⟨c, cs, hrest, hbegins, hblank, hline⟩
    have hself : s.settle = s := settle_eq_self (fun d hd => by
      rw [hrest] at hd
      obtain rfl : c = d := Option.some.inj hd
      exact ⟨hblank, fun h => absurd h hline⟩)
    unfold next
    rw [hself, read_cons hrest hline]
    refine ⟨?_, congrArg Span.start (take_spells hat _ _ _).span_eq⟩
    rw [take_kind]
    exact (Lexeme.atFront_kind_eq_invalid_iff _ c cs).2 hbegins

/-- **An invalid token is a run** of stray characters, up to one that ends
it. -/
theorem next_stray (hat : s.At before) (hkind : s.next.1.kind = .invalid) :
    ∃ gap c run, s.rest = gap ++ (c :: run ++ s.next.2.rest)
      ∧ s.next.1.Spells (before ++ gap) (c :: run)
      ∧ s.next.2.At (before ++ gap ++ c :: run)
      ∧ s.next.2.source = s.source
      ∧ s.next.1.error = some (.unexpectedCharacter c)
      ∧ (∀ d ∈ s.next.2.rest.head?, endsStray d = true) := by
  obtain ⟨c, cs, hrest, -, hline⟩ := exists_settle_rest
    (s := s) (by simp [Token.isEof, hkind]) (by simp [hkind])
  obtain ⟨gap, -, hgap, hplace⟩ := settle_at hat
  have hfound := read_cons hrest hline
  rw [next, hfound, take_kind, Lexeme.atFront_kind_eq_invalid_iff] at hkind
  rw [Lexeme.atFront_eq_stray _ hkind] at hfound
  obtain ⟨run, behind, rfl, hrun, hends⟩ : ∃ run behind, cs = run ++ behind
      ∧ (Lexeme.stray c cs).extent = run.length
      ∧ ∀ d ∈ behind.head?, endsStray d = true := by
    refine ⟨_, _, List.takeWhile_append_dropWhile.symm, rfl, fun d hd => ?_⟩
    have := List.head?_dropWhile_not (fun d => !endsStray d) cs
    simp_all
  have htake : s.settle.rest.take ((Lexeme.stray c (run ++ behind)).extent + 1)
      = c :: run := by
    rw [hrest, hrun, List.take_succ_cons, List.take_left]
  have hdrop : s.next.2.rest = behind := by
    rw [next, hfound, remember_rest, past_rest, hrest, hrun,
      List.drop_succ_cons, List.drop_left]
  refine ⟨gap, c, run, ?_, ?_, ?_, ?_, ?_, ?_⟩
  · rw [hdrop, hgap, hrest, List.cons_append]
  · rw [← htake, next, hfound]
    exact take_spells hplace _ _ _
  · rw [← htake, next, hfound]
    exact (take_at hplace .invalid _ none).remember .invalid
  · rw [next, hfound, remember_source]
    rfl
  · rw [next, hfound]
    rfl
  · rwa [hdrop]

end Scanner

/-- **Runs of stray characters.** An invalid token is a run of characters,
reported by its first one. The next token is an invalid one right behind it
exactly if there is wide white space. -/
theorem tokens_stray (source : List Char) : ∀ front t u back,
    tokens source = front ++ t :: u :: back → t.kind = .invalid →
    ∃ before c run behind, source = before ++ (c :: run ++ behind)
      ∧ t.Spells before (c :: run)
      ∧ t.error = some (.unexpectedCharacter c)
      ∧ ((u.kind = .invalid ∧ u.span.start = t.span.stop)
        ↔ behind.head?.any isWideSpace = true) := by
  intro front t u back hstream hkind
  obtain ⟨s, place, hat, hsource, -, hs⟩ := Scanner.exists_stream_eq
    (Scanner.ofSource_at source) (Scanner.ofSource_saw source) hstream
  obtain rfl := Scanner.next_eq_of_stream hs
  have heof : s.next.1.isEof = false := by simp [Token.isEof, hkind]
  rw [Scanner.stream_of_not_eof heof] at hs
  obtain rfl := Scanner.next_eq_of_stream (List.cons.inj hs).2
  obtain ⟨gap, c, run, hrest, hspells, hat', -, herror, hends⟩ :=
    Scanner.next_stray hat hkind
  refine ⟨place ++ gap, c, run, s.next.2.rest, ?_, hspells, herror, ?_⟩
  · rw [List.append_assoc, ← hrest, ← hat.source_eq]
    exact hsource.symm
  have hstop : s.next.1.span.stop = byteLength (place ++ gap ++ c :: run) := by
    rw [hspells.span_eq, byteLength_append _ (c :: run)]
  rw [hstop, Scanner.next_invalid_iff hat']
  -- What ends the run is white space, or some token begins with it.
  constructor
  · rintro ⟨d, ds, hd, hbegins, hblank, hline⟩
    have hspace := hends d (by rw [hd]; rfl)
    rw [endsStray_eq, hbegins, Bool.false_or] at hspace
    rw [hd]
    exact isWideSpace_iff.2 ⟨hspace, hblank, hline⟩
  · intro hwide
    cases hd : s.next.2.rest with
    | nil => simp [hd] at hwide
    | cons d ds =>
      rw [hd] at hwide
      obtain ⟨hspace, hblank, hline⟩ := isWideSpace_iff.1 hwide
      exact ⟨d, ds, rfl, beginsToken_of_isWhiteSpace hspace, hblank, hline⟩

/-- An em space behind a stray character is the beginning of another
token. -/
theorem tokens_stray_emSpace :
    let source := "§ §".toList
    ∃ t u back, tokens source = t :: u :: back
      ∧ t.kind = .invalid ∧ u.kind = .invalid
      ∧ u.span.start = t.span.stop
      ∧ ∃ before c run behind, source = before ++ (c :: run ++ behind)
        ∧ t.Spells before (c :: run)
        ∧ behind.head?.any isWideSpace = true := by
  intro source
  have htokens : tokens source
      = [] ++ ⟨.invalid, "§", ⟨0, 2⟩, ⟨1, 1, 0⟩,
          some (.unexpectedCharacter '§')⟩
        :: ⟨.invalid, " §", ⟨2, 7⟩, ⟨1, 2, 2⟩,
          some (.unexpectedCharacter ' ')⟩
        :: [⟨.eof, "", ⟨7, 7⟩, ⟨1, 4, 7⟩, none⟩] := by
    decide +kernel
  obtain ⟨before, c, run, behind, hsource, hspells, -, hiff⟩ :=
    tokens_stray source _ _ _ _ htokens rfl
  exact ⟨_, _, _, htokens, rfl, rfl, rfl, before, c, run, behind, hsource,
    hspells, hiff.1 ⟨rfl, rfl⟩⟩

/-- **Two invalid tokens may stand side by side.** -/
theorem exists_adjacent_invalid :
    ¬∀ (source : List Char) front t u back,
      tokens source = front ++ t :: u :: back →
      ¬(t.kind = .invalid ∧ u.kind = .invalid
        ∧ t.span.stop = u.span.start) := by
  intro h
  have htokens : tokens "§ §".toList
      = [] ++ ⟨.invalid, "§", ⟨0, 2⟩, ⟨1, 1, 0⟩,
          some (.unexpectedCharacter '§')⟩
        :: ⟨.invalid, " §", ⟨2, 7⟩, ⟨1, 2, 2⟩,
          some (.unexpectedCharacter ' ')⟩
        :: [⟨.eof, "", ⟨7, 7⟩, ⟨1, 4, 7⟩, none⟩] := by
    decide +kernel
  exact h _ _ _ _ _ htokens ⟨rfl, rfl, rfl⟩

end ScriptTree
