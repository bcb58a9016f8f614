/-!
# Blank characters

Two classes of blank characters are in use, and they are not the same.
`isBlank` is what the scanner passes over without a trace;
`isWhiteSpace` is the property White_Space of the character standard.
The byte order mark is blank but not white space; the next-line control
and the wide spaces are white space but not blank; and the line break is
white space that the scanner has to look at.
-/

namespace ScriptTree

/-- **A character that never matters between tokens**: space, tab,
carriage return, vertical tab, form feed, no-break space and byte order
mark. -/
def isBlank (c : Char) : Bool :=
  c = ' ' || c = '\t' || c = '\r' || c = '\x0b' || c = '\x0c'
    || c = '\u00a0' || c = '\ufeff'

/-- **The property White_Space**, which every space and every kind of line
end has. -/
def isWhiteSpace (c : Char) : Bool :=
  let n := c.toNat
  (0x09 ≤ n && n ≤ 0x0d) || n = 0x20 || n = 0x85 || n = 0xa0 || n = 0x1680
    || (0x2000 ≤ n && n ≤ 0x200a) || n = 0x2028 || n = 0x2029
    || n = 0x202f || n = 0x205f || n = 0x3000

/-- Every blank character but the byte order mark is white space. -/
theorem isWhiteSpace_of_isBlank {c : Char} (h : isBlank c = true)
    (hc : c ≠ '\ufeff') : isWhiteSpace c = true := by
  simp only [isBlank, Bool.or_eq_true, decide_eq_true_eq] at h
  rcases h with (((((rfl | rfl) | rfl) | rfl) | rfl) | rfl) | rfl
  all_goals first | rfl | exact absurd rfl hc

/-- The text without the white space at its front. -/
def trimStart (text : List Char) : List Char :=
  text.dropWhile isWhiteSpace

/-- The text without the white space at its end. -/
def trimEnd (text : List Char) : List Char :=
  (trimStart text.reverse).reverse

end ScriptTree
