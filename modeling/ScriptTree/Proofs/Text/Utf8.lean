import ScriptTree.Text.Utf8
import ScriptTree.Proofs.Text.Cut

/-!
# How far bytes are a text

Bytes are a text if they are the UTF-8 form of some characters. Forms that
are too long, halves of a surrogate pair, numbers beyond the last code
point and forms that break off are the form of no character; so they need
no word here, and the longest front of the bytes that is a text is simply
that.

`decodePrefix` finds this front. It stops at the first byte at which no
character begins; and as characters are told apart by their own bytes, any
text that the bytes begin with begins with the characters found so far
(`eq_append_of_extract`). A longer text would have one more of them, where
there is none.
-/

namespace ScriptTree

/-- **The longest front of the bytes that is a text.** -/
structure IsLongestText (bytes : ByteArray) (front : List Char) : Prop where
  /-- It does not go beyond the bytes. -/
  le_size : byteLength front ≤ bytes.size
  /-- The bytes begin with its form. -/
  extract_eq : bytes.extract 0 (byteLength front) = front.utf8Encode
  /-- No front of the bytes is a longer text. -/
  longest : ∀ n ≤ bytes.size, (bytes.extract 0 n).IsValidUTF8 →
    n ≤ byteLength front

variable {bytes : ByteArray}

/-- A text that the bytes begin with begins with any shorter one. -/
theorem eq_append_of_extract {front text : List Char} {v n : Nat}
    (hfront : bytes.extract 0 v = front.utf8Encode)
    (htext : bytes.extract 0 n = text.utf8Encode) (hle : v ≤ n) :
    ∃ more, text = front ++ more
      ∧ bytes.extract v n = more.utf8Encode := by
  rw [ByteArray.extract_eq_extract_append_extract v (Nat.zero_le v) hle,
    hfront] at htext
  obtain ⟨more, rfl⟩ := List.isPrefix_of_utf8Encode_append_eq_utf8Encode _
    htext
  rw [List.utf8Encode_append, ByteArray.append_right_inj] at htext
  exact ⟨more, rfl, htext⟩

namespace IsLongestText

variable {front text : List Char}

/-- There is only one longest front. -/
theorem unique (h : IsLongestText bytes front)
    (h' : IsLongestText bytes text) : front = text := by
  have hle := h'.longest _ h.le_size ⟨front, h.extract_eq⟩
  have hge := h.longest _ h'.le_size ⟨text, h'.extract_eq⟩
  obtain ⟨more, rfl, _⟩ := eq_append_of_extract h.extract_eq h'.extract_eq hle
  rw [byteLength_append] at hge
  obtain rfl : more = [] := byteLength_eq_zero_iff.1 (by omega)
  exact (List.append_nil front).symm

end IsLongestText

end ScriptTree
