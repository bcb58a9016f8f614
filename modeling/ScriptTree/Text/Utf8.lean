import ScriptTree.Text.Location

/-!
# Text from bytes

Bytes are a text as far as they are UTF-8. `decodeFrom` reads characters
until it meets a byte that begins none, and says where that is; the bytes
are a text if that is their end.
-/

namespace ScriptTree

/-- The characters from a byte on, with the ones found so far, the last of
them first, and the first byte that begins no character. -/
def decodeFrom (bytes : ByteArray) (i : Nat) (found : List Char) :
    List Char × Nat :=
  if i < bytes.size then
    match bytes.utf8DecodeChar? i with
    | some c => decodeFrom bytes (i + c.utf8Size) (c :: found)
    | none => (found.reverse, i)
  else (found.reverse, i)
termination_by bytes.size - i
decreasing_by
  have := Char.utf8Size_pos c
  omega

/-- **The longest front of the bytes that is a text**, and the number of
its bytes. -/
def decodePrefix (bytes : ByteArray) : List Char × Nat :=
  decodeFrom bytes 0 []

end ScriptTree
