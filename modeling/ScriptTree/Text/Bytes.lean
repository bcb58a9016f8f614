/-!
# Byte offsets in a text

A text is a list of characters, and places in it are counted in the
bytes of its UTF-8 form. The two scales differ as soon as a character
takes more than one byte, so an offset may fall *inside* a character:
cutting a text at an offset is a partial operation, and `splitAtByte?`
answers only where the cut runs between two characters.
-/

namespace ScriptTree

/-- **The size of a text**: the number of bytes of its UTF-8 form. -/
def byteLength (text : List Char) : Nat :=
  text.foldr (fun c size => c.utf8Size + size) 0

@[simp] theorem byteLength_nil : byteLength [] = 0 := rfl

@[simp] theorem byteLength_cons (c : Char) (text : List Char) :
    byteLength (c :: text) = c.utf8Size + byteLength text := rfl

@[simp] theorem byteLength_append (a b : List Char) :
    byteLength (a ++ b) = byteLength a + byteLength b := by
  induction a with
  | nil => exact (Nat.zero_add _).symm
  | cons c a ih =>
    rw [List.cons_append, byteLength_cons, byteLength_cons, ih,
      Nat.add_assoc]

/-- The loop of `splitAtByte?`: `seen` holds what was passed so far, last
character first. -/
def splitAtByteFrom? : (offset : Nat) → (rest seen : List Char) →
    Option (List Char × List Char)
  | 0, rest, seen => some (seen.reverse, rest)
  | _ + 1, [], _ => none
  | n + 1, c :: rest, seen =>
    if c.utf8Size ≤ n + 1 then
      splitAtByteFrom? (n + 1 - c.utf8Size) rest (c :: seen)
    else none

/-- **A text cut at a byte offset**: what lies before the offset and what
lies after it. There is no answer when the offset is beyond the end or
inside a character. -/
def splitAtByte? (text : List Char) (offset : Nat) :
    Option (List Char × List Char) :=
  splitAtByteFrom? offset text []

/-- The loop succeeds exactly where the rest has a front of the right
size. -/
theorem splitAtByteFrom?_eq_some_iff {n : Nat} {rest seen a b : List Char} :
    splitAtByteFrom? n rest seen = some (a, b) ↔
      ∃ front, rest = front ++ b ∧ a = seen.reverse ++ front
        ∧ byteLength front = n := by
  induction rest generalizing n seen with
  | nil =>
    cases n with
    | zero =>
      simp only [splitAtByteFrom?, Option.some.injEq, Prod.mk.injEq]
      constructor
      · rintro ⟨rfl, rfl⟩
        exact ⟨[], by simp⟩
      · rintro ⟨front, h, rfl, _⟩
        obtain ⟨rfl, rfl⟩ := List.nil_eq_append_iff.1 h
        simp
    | succ n =>
      simp only [splitAtByteFrom?, reduceCtorEq, false_iff]
      rintro ⟨front, h, _, hn⟩
      obtain ⟨rfl, _⟩ := List.nil_eq_append_iff.1 h
      simp at hn
  | cons c rest ih =>
    have hpos := Char.utf8Size_pos c
    cases n with
    | zero =>
      simp only [splitAtByteFrom?, Option.some.injEq, Prod.mk.injEq]
      constructor
      · rintro ⟨rfl, rfl⟩
        exact ⟨[], by simp⟩
      · rintro ⟨front, h, rfl, hn⟩
        cases front with
        | nil => simp_all
        | cons d front =>
          have := Char.utf8Size_pos d
          simp at hn
          omega
    | succ n =>
      simp only [splitAtByteFrom?]
      split
      case isTrue hle =>
        rw [ih]
        constructor
        · rintro ⟨front, rfl, rfl, hn⟩
          exact ⟨c :: front, by simp, by simp, by simp; omega⟩
        · rintro ⟨front, h, rfl, hn⟩
          cases front with
          | nil => simp at hn
          | cons d front =>
            obtain ⟨rfl, rfl⟩ := List.cons_eq_cons.1 h
            simp at hn
            exact ⟨front, rfl, by simp, by omega⟩
      case isFalse hle =>
        simp only [reduceCtorEq, false_iff]
        rintro ⟨front, h, _, hn⟩
        cases front with
        | nil => simp at hn
        | cons d front =>
          obtain ⟨rfl, _⟩ := List.cons_eq_cons.1 h
          simp at hn
          omega

/-- **A cut loses nothing and falls where it was asked for**: the two
parts make up the text and the first has the size of the offset. -/
theorem splitAtByte?_eq_some_iff {text a b : List Char} {offset : Nat} :
    splitAtByte? text offset = some (a, b) ↔
      text = a ++ b ∧ byteLength a = offset := by
  rw [splitAtByte?, splitAtByteFrom?_eq_some_iff]
  constructor
  · rintro ⟨front, rfl, rfl, hn⟩
    simpa using hn
  · rintro ⟨rfl, hn⟩
    exact ⟨a, by simp, by simp, hn⟩

end ScriptTree
