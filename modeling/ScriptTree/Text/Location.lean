import ScriptTree.Text.Bytes

/-!
# Positions and spans

A `Position` names one place of a text for a reader – line, column – and
for a program – byte offset. Lines and columns are counted in words of 32
bits, which go around in a text that is long enough: a place as it is found
is the place as it is counted (`Position.counted`), taken into words
(`Position.inWords`). A `Span` is a range of byte offsets, which may be out
of order or out of range: it is only a pair of numbers, and `Span.slice`
says what text, if any, it holds.
-/

namespace ScriptTree

/-- **A place in a text.** Lines and columns start at one, and columns
count characters. -/
structure Position where
  /-- The line, the first one being line 1. -/
  line : Nat
  /-- The column in characters, the first one being column 1. -/
  column : Nat
  /-- The number of bytes before the place. -/
  offset : Nat
deriving Repr, DecidableEq

namespace Position

/-- The place of the first character. -/
def start : Position := ⟨1, 1, 0⟩

/-- **A place with its line and column in words** of 32 bits: what does not
fit goes around. -/
def inWords (p : Position) : Position :=
  ⟨p.line % UInt32.size, p.column % UInt32.size, p.offset⟩

/-- The place after the character at `p`, counted on. -/
def past (p : Position) (c : Char) : Position :=
  if c = '\n' then ⟨p.line + 1, 1, p.offset + c.utf8Size⟩
  else ⟨p.line, p.column + 1, p.offset + c.utf8Size⟩

/-- The place after the character at `p`, counted on in words. -/
def advance (p : Position) (c : Char) : Position := (p.past c).inWords

/-- The place after the text that begins at `p`. -/
def advanceBy (p : Position) (text : List Char) : Position :=
  text.foldl advance p

/-- **The place where a text ends, counted afresh**: one line more than it
has line breaks, and one column more than it has characters after the last
of them. -/
def counted (text : List Char) : Position where
  line := text.count '\n' + 1
  column := (text.reverse.takeWhile (· ≠ '\n')).length + 1
  offset := byteLength text

/-- **The place where a text ends**, in words. -/
def after (text : List Char) : Position := (counted text).inWords

@[simp] theorem advanceBy_nil (p : Position) : p.advanceBy [] = p := rfl

@[simp] theorem advanceBy_cons (p : Position) (c : Char)
    (text : List Char) :
    p.advanceBy (c :: text) = (p.advance c).advanceBy text := rfl

theorem advanceBy_append (p : Position) (a b : List Char) :
    p.advanceBy (a ++ b) = (p.advanceBy a).advanceBy b :=
  List.foldl_append

@[simp] theorem advance_offset (p : Position) (c : Char) :
    (p.advance c).offset = p.offset + c.utf8Size := by
  unfold advance past
  split <;> rfl

@[simp] theorem advanceBy_offset (p : Position) (text : List Char) :
    (p.advanceBy text).offset = p.offset + byteLength text := by
  induction text generalizing p with
  | nil => rfl
  | cons c text ih =>
    rw [advanceBy_cons, ih, advance_offset, byteLength_cons,
      Nat.add_assoc]

/-- **A place that fits into words.** -/
def Fits (p : Position) : Prop :=
  p.line < UInt32.size ∧ p.column < UInt32.size

instance (p : Position) : Decidable p.Fits :=
  inferInstanceAs (Decidable (_ ∧ _))

/-- Words keep the places that fit into them, and no others. -/
theorem inWords_eq_self_iff {p : Position} : p.inWords = p ↔ p.Fits := by
  have hsize : 0 < UInt32.size := by decide
  constructor
  · intro h
    have hline := congrArg line h
    have hcolumn := congrArg column h
    exact ⟨hline ▸ Nat.mod_lt _ hsize, hcolumn ▸ Nat.mod_lt _ hsize⟩
  · intro ⟨hline, hcolumn⟩
    rw [inWords, Nat.mod_eq_of_lt hline, Nat.mod_eq_of_lt hcolumn]

/-- Counting on from a place in words goes around as often in the end. -/
theorem advance_inWords (p : Position) (c : Char) :
    p.inWords.advance c = p.advance c := by
  unfold advance past inWords
  split <;> simp

/-- A place counted afresh is the place behind the character before
it. -/
theorem counted_concat (text : List Char) (c : Char) :
    counted (text ++ [c]) = (counted text).past c := by
  unfold counted past
  by_cases hc : c = '\n'
  · simp [hc]
  · simp [hc]

theorem after_concat (text : List Char) (c : Char) :
    after (text ++ [c]) = (after text).advance c := by
  rw [after, counted_concat]
  exact (advance_inWords (counted text) c).symm

/-- **Counting on and counting afresh agree.** -/
theorem start_advanceBy (text : List Char) :
    start.advanceBy text = after text := by
  obtain ⟨back, rfl⟩ : ∃ back : List Char, text = back.reverse :=
    ⟨text.reverse, (List.reverse_reverse text).symm⟩
  induction back with
  | nil => rfl
  | cons c back ih =>
    rw [List.reverse_cons, advanceBy_append, ih, after_concat,
      advanceBy_cons, advanceBy_nil]

end Position

/-- **The place of a byte offset.** An offset at which the text cannot be
cut stands for the end of the text. -/
def positionAt (text : List Char) (offset : Nat) : Position :=
  match splitAtByte? text offset with
  | some (before, _) => Position.after before
  | none => Position.after text

/-- **A range of bytes**, from `start` up to and not including `stop`. -/
structure Span where
  /-- The first offset of the range. -/
  start : Nat
  /-- The first offset after it. -/
  stop : Nat
deriving Repr, DecidableEq, Inhabited

namespace Span

/-- The empty range at an offset. -/
def emptyAt (offset : Nat) : Span := ⟨offset, offset⟩

/-- The number of bytes in the range. -/
def length (s : Span) : Nat := s.stop - s.start

/-- Whether the range holds no byte. -/
def isEmpty (s : Span) : Bool := s.stop ≤ s.start

/-- The least range that holds both. -/
def cover (a b : Span) : Span := ⟨min a.start b.start, max a.stop b.stop⟩

/-- Whether the second range lies within the first. -/
def contains (a b : Span) : Bool := a.start ≤ b.start && b.stop ≤ a.stop

/-- **The text a range holds**: nothing where the range is out of order,
out of bounds or cuts a character. -/
def slice (s : Span) (text : List Char) : List Char :=
  if s.start ≤ s.stop then
    match splitAtByte? text s.start with
    | some (_, rest) =>
      match splitAtByte? rest (s.stop - s.start) with
      | some (middle, _) => middle
      | none => []
    | none => []
  else []

/-- A range cut out of a text holds what lies between the cuts. -/
theorem slice_append (a b c : List Char) :
    slice ⟨byteLength a, byteLength a + byteLength b⟩ (a ++ (b ++ c))
      = b := by
  have ha : splitAtByte? (a ++ (b ++ c)) (byteLength a)
      = some (a, b ++ c) :=
    splitAtByte?_eq_some_iff.2 ⟨rfl, rfl⟩
  have hb : splitAtByte? (b ++ c) (byteLength b) = some (b, c) :=
    splitAtByte?_eq_some_iff.2 ⟨rfl, rfl⟩
  simp only [slice, Nat.le_add_right, if_true, ha, Nat.add_sub_cancel_left,
    hb]

end Span

end ScriptTree
