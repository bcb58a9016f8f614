import ScriptTree.Proofs.Chain.Climb
import ScriptTree.Proofs.Token.Respacing

/-!
# Texts of single words

A **word** is a text that is one token, whatever came before it. Words with
one space between them are found again one by one, each in its place, so for
a text of words the state of a parse is known from how many of them have
been read (`State.AtWords`).
-/

namespace ScriptTree

/-! ## Words -/

/-- **A text that is a single token** of the grammar with nothing wrong,
whether or not a slash divides where it stands. -/
structure Word where
  /-- The kind of the token. -/
  kind : TokenKind
  /-- The first character. -/
  head : Char
  /-- The characters after it. -/
  tail : List Char
  /-- The token is all of the text. -/
  atFront_eq (slashDivides : Bool) :
    Lexeme.atFront slashDivides head tail = ⟨kind, tail.length, none⟩
  /-- It is no comment. -/
  kind_ne : kind ≠ .comment

namespace Word

/-- The characters of a word. -/
def text (w : Word) : List Char := w.head :: w.tail

/-- The word as a tree has it. -/
def spelling (w : Word) : String := String.ofList w.text

/-- Where a word stands that begins at an offset. -/
def span (w : Word) (start : Nat) : Span :=
  ⟨start, start + byteLength w.text⟩

variable (w : Word) (ws ws' : List Word)

theorem kind_ne_eof : w.kind ≠ .eof := by
  have h := (Lexeme.atFront_kind_ne true w.head w.tail).1
  rwa [w.atFront_eq] at h

/-- A word is a token of the grammar. -/
theorem isExtra_kind : w.kind.isExtra = false := by
  have hline := (Lexeme.atFront_kind_ne true w.head w.tail).2
  rw [w.atFront_eq] at hline
  cases hkind : w.kind
  case comment => exact absurd hkind w.kind_ne
  case lineBreak => exact absurd hkind hline
  all_goals rfl

/-- A text that begins with white space is no token. -/
theorem isBlank_head : isBlank w.head = false ∧ w.head ≠ '\n' := by
  have hstray : ∀ c, (Lexeme.atFront true c w.tail).error ≠ none →
      w.head ≠ c := by
    rintro c hc rfl
    rw [w.atFront_eq] at hc
    exact hc rfl
  refine ⟨Bool.eq_false_iff.2 fun hblank => ?_,
    hstray _ (Option.some_ne_none _)⟩
  simp only [isBlank, Bool.or_eq_true, decide_eq_true_eq] at hblank
  rcases hblank with (((((h | h) | h) | h) | h) | h) | h
  all_goals exact absurd h (hstray _ (Option.some_ne_none _))

/-- **A word ends where the text goes on with a space.** -/
theorem atFront_spacedOut (slashDivides : Bool) (texts : List (List Char)) :
    Lexeme.atFront slashDivides w.head (w.tail ++ spacedOut texts)
      = ⟨w.kind, w.tail.length, none⟩ :=
  Lexeme.atFront_follow (mayFollow_spacedOut [] texts) w.kind_ne
    (fun _ h => absurd h (head?_spacedOut texts))
    (by rw [List.append_nil, w.atFront_eq])

/-! ## Texts of words -/

/-- **Words with single spaces between them.** -/
def line : List Char := [' '].intercalate (ws.map text)

/-- The words with a space in front of each. -/
def behind : List Char := spacedOut (ws.map text)

/-- How far the words reach, with the space behind each. -/
def width : Nat := byteLength (behind ws)

theorem line_cons : line (w :: ws) = w.text ++ behind ws := by
  rw [line, List.map_cons, intercalate_cons_eq]
  rfl

theorem behind_cons : behind (w :: ws) = ' ' :: (w.text ++ behind ws) := rfl

@[simp] theorem width_nil : width [] = 0 := rfl

theorem width_cons : width (w :: ws) = byteLength w.text + 1 + width ws := by
  rw [width, behind_cons, byteLength_cons, byteLength_append,
    show Char.utf8Size ' ' = 1 from rfl, Nat.add_comm, Nat.add_right_comm]
  rfl

@[simp] theorem width_append : width (ws ++ ws') = width ws + width ws' := by
  rw [width, behind, List.map_append, spacedOut, List.flatMap_append,
    byteLength_append]
  rfl

theorem width_singleton : width [w] = byteLength w.text + 1 := by
  rw [width_cons, width_nil, Nat.add_zero]

/-- A word is behind each of the words before it. -/
theorem length_le_width : ws.length ≤ width ws := by
  induction ws with
  | nil => exact Nat.le_refl 0
  | cons w ws ih =>
    rw [width_cons, List.length_cons]
    omega

theorem width_pos (h : ws ≠ []) : 0 < width ws :=
  Nat.lt_of_lt_of_le (List.length_pos_iff.2 h) (length_le_width ws)

/-- The kind of the first of some words, or of the end of the text. -/
def kindOf : List Word → TokenKind
  | [] => .eof
  | w :: _ => w.kind

end Word

open Word

/-- **A token that is a word** at an offset. -/
structure Token.Is (t : Token) (w : Word) (start : Nat) : Prop where
  /-- It is of that kind. -/
  kind_eq : t.kind = w.kind
  /-- It has that text. -/
  text_eq : t.text = w.spelling
  /-- It stands there. -/
  span_eq : t.span = w.span start
  /-- Nothing is wrong with it. -/
  error_eq : t.error = none

/-- **The first token of some words**, which begin at an offset, or of the
end of the text. -/
def Token.Heads (t : Token) (start : Nat) : List Word → Prop
  | [] => t.kind = .eof
  | w :: _ => t.Is w start

theorem Token.Heads.kind_eq {t : Token} {start : Nat} {ws : List Word}
    (h : t.Heads start ws) : t.kind = kindOf ws := by
  cases ws with
  | nil => exact h
  | cons w ws => exact Token.Is.kind_eq h

/-! ## What a scanner finds -/

namespace Scanner

variable {s : Scanner} {start : Nat} {w : Word} {ws : List Word}

/-- **A scanner in front of some words**, of which the first begins at an
offset. At the front of the text no space is before it. -/
def Awaits (s : Scanner) (start : Nat) (ws : List Word) : Prop :=
  s.rest = line ws ∧ s.position.offset = start
    ∨ s.rest = behind ws ∧ s.position.offset + 1 = start

/-- The scanner settles before the first character of the word. -/
theorem Awaits.settle (h : s.Awaits start (w :: ws)) :
    s.settle.rest = w.head :: (w.tail ++ behind ws)
      ∧ s.settle.position.offset = start := by
  obtain ⟨hblank, hline⟩ := w.isBlank_head
  have hself {t : Scanner} (ht : t.rest = w.head :: (w.tail ++ behind ws)) :
      t.settle = t := by
    refine settle_eq_self fun c hc => ?_
    rw [ht] at hc
    obtain rfl : w.head = c := Option.some.inj hc
    exact ⟨hblank, fun h => absurd h hline⟩
  rcases h with ⟨hrest, hoffset⟩ | ⟨hrest, hoffset⟩
  · rw [line_cons] at hrest
    rw [hself hrest]
    exact ⟨hrest, hoffset⟩
  · rw [behind_cons] at hrest
    have hpast : (s.past 1).rest = w.head :: (w.tail ++ behind ws) := by
      rw [past_rest, hrest]
      rfl
    rw [← settle_past_one hrest rfl, hself hpast]
    refine ⟨hpast, ?_⟩
    show (s.position.advanceBy (s.rest.take 1)).offset = start
    rw [hrest, Position.advanceBy_offset, ← hoffset]
    rfl

/-- **The next word is found**, and the others are behind it. -/
theorem Awaits.nextSignificant_cons (h : s.Awaits start (w :: ws)) :
    s.nextSignificant.extras = [] ∧ s.nextSignificant.token.Is w start
      ∧ s.nextSignificant.scanner.Awaits (start + width [w]) ws := by
  obtain ⟨hrest, hoffset⟩ := h.settle
  have htake : (w.head :: (w.tail ++ behind ws)).take (w.tail.length + 1)
      = w.text := by
    rw [List.take_succ_cons, List.take_left]
    rfl
  have hstop : (s.settle.position.advanceBy w.text).offset
      = start + byteLength w.text := by
    rw [Position.advanceBy_offset, hoffset]
  rw [nextSignificant_of_read hrest w.isBlank_head.2
    (w.atFront_spacedOut _ _) w.isExtra_kind]
  refine ⟨rfl, ⟨rfl, ?_, ?_, rfl⟩, .inr ⟨?_, ?_⟩⟩
  · show String.ofList (s.settle.rest.take (w.tail.length + 1)) = _
    rw [hrest, htake]
    rfl
  · show Span.mk s.settle.position.offset (s.settle.position.advanceBy
      (s.settle.rest.take (w.tail.length + 1))).offset = _
    rw [hrest, htake, hstop, hoffset]
    rfl
  · rw [remember_rest, past_rest, hrest, List.drop_succ_cons, List.drop_left]
  · have hremember (t : Scanner) :
        (t.remember w.kind).position = t.position := by
      unfold remember
      split <;> rfl
    rw [hremember, width_singleton, ← Nat.add_assoc, ← hstop]
    show (s.settle.position.advanceBy
      (s.settle.rest.take (w.tail.length + 1))).offset + 1 = _
    rw [hrest, htake]

/-- **The next word, or the end of the text**, with nothing passed before
it and nothing wrong with it. -/
theorem Awaits.nextSignificant (h : s.Awaits start ws) :
    s.nextSignificant.extras = [] ∧ s.nextSignificant.token.error = none
      ∧ s.nextSignificant.token.Heads start ws
      ∧ s.nextSignificant.scanner.Awaits (start + width (ws.take 1))
          ws.tail := by
  cases ws with
  | nil =>
    have hrest : s.rest = [] := by
      rcases h with ⟨hrest, -⟩ | ⟨hrest, -⟩ <;> exact hrest
    rw [nextSignificant_of_end hrest]
    exact ⟨rfl, rfl, rfl, h⟩
  | cons w ws =>
    obtain ⟨hextras, htoken, hscanner⟩ := h.nextSignificant_cons
    exact ⟨hextras, htoken.error_eq, htoken, hscanner⟩

/-- **A look at the next word.** -/
theorem Awaits.peek (h : s.Awaits start ws) : s.peek.kind = kindOf ws :=
  h.nextSignificant.2.2.1.kind_eq

/-- A look at the word after it. -/
theorem Awaits.peekSecond (h : s.Awaits start ws) :
    s.peekSecond.kind = kindOf ws.tail := by
  obtain ⟨-, -, hheads, hscanner⟩ := h.nextSignificant
  unfold Scanner.peekSecond
  dsimp only
  split
  · -- Behind the end there is the end again.
    rename_i heof
    cases ws with
    | nil => exact hheads.kind_eq
    | cons w ws =>
      have hkind : w.kind = .eof :=
        hheads.kind_eq.symm.trans (of_decide_eq_true heof)
      exact absurd hkind w.kind_ne_eof
  · exact hscanner.peek

end Scanner

/-! ## Where a parse stands -/

/-- **A parse in front of some words**, of which the first begins at an
offset, with the problems found so far. The words before it end a space
earlier. -/
structure State.AtWords (s : State) (found : Array Diagnostic) (start : Nat)
    (ws : List Word) : Prop where
  /-- There are no line breaks. -/
  newlineBefore_eq : s.newlineBefore = false
  /-- The parse has not ended. -/
  aborted_eq : s.aborted = false
  /-- The problems are these. -/
  diagnostics_eq : s.diagnostics = found
  /-- The words before are read. -/
  consumedTo_eq : s.consumedTo = start - 1
  /-- The first of the words is current. -/
  current : s.current.Heads start ws
  /-- The others are behind it. -/
  scanner : s.scanner.Awaits (start + width (ws.take 1)) ws.tail

namespace State

variable {s : State} {found : Array Diagnostic} {start : Nat} {w : Word}
  {ws : List Word}

namespace AtWords

theorem kind_eq (h : s.AtWords found start ws) :
    s.current.kind = kindOf ws :=
  h.current.kind_eq

theorem here_eq (h : s.AtWords found start (w :: ws)) : s.here = start :=
  congrArg Span.start (Token.Is.span_eq h.current)

/-- The text ends where there are no words. -/
theorem isEof_eq (h : s.AtWords found start ws) :
    s.current.isEof = ws.isEmpty := by
  unfold Token.isEof
  rw [h.kind_eq]
  cases ws with
  | nil => rfl
  | cons w ws => exact decide_eq_false w.kind_ne_eof

/-- **Going on to some words** from what ends a space before them. -/
theorem of_awaits (hscanner : s.scanner.Awaits start ws)
    (haborted : s.aborted = false) (hstop : s.current.span.stop = start - 1)
    (ctx : Context) : (s.bump ctx).AtWords s.diagnostics start ws := by
  obtain ⟨hextras, herror, hheads, hawaits⟩ := hscanner.nextSignificant
  have hbump : s.bump ctx = { s with
      scanner := s.scanner.nextSignificant.scanner
      current := s.scanner.nextSignificant.token
      newlineBefore := false
      consumedTo := s.current.span.stop
      taken := s.current :: s.taken } := by
    unfold State.bump reportToken
    dsimp only
    rw [hextras, herror]
    rfl
  rw [hbump]
  exact
    { newlineBefore_eq := rfl
      aborted_eq := haborted
      diagnostics_eq := rfl
      consumedTo_eq := hstop
      current := hheads
      scanner := hawaits }

/-- **Reading a word** goes on to the next and finds no problem. -/
theorem bump (h : s.AtWords found start (w :: ws)) (ctx : Context) :
    (s.bump ctx).AtWords found (start + width [w]) ws := by
  have hstop : s.current.span.stop = start + width [w] - 1 := by
    rw [Token.Is.span_eq h.current, width_singleton]
    rfl
  rw [← h.diagnostics_eq]
  exact of_awaits h.scanner h.aborted_eq hstop ctx

/-- How many levels have been entered does not matter. -/
theorem enter (h : s.AtWords found start ws) : s.enter.AtWords found start ws :=
  { h with }

theorem leave (h : s.AtWords found start ws) : s.leave.AtWords found start ws :=
  { h with }

end AtWords

/-- **A script of words** begins with the first of them. -/
theorem initial_atWords (ws : List Word) (options : Options)
    (table : OperatorTable) :
    (State.initial (.ofSource (line ws) options table)).AtWords #[] 0 ws :=
  AtWords.of_awaits (s := .blank (line ws)) (.inl ⟨rfl, rfl⟩) rfl rfl _

end State

end ScriptTree
