import ScriptTree.Text.Blank
import ScriptTree.Text.Location

/-!
# Places where a text can be cut

A byte offset is a **cut** of a text if it runs between two characters.
Spans between cuts are the ones that hold text, and of a character one
can say whether it lies in such a span or not.

`Covers` is what a scan leaves behind: between two offsets every
character lies in one of some spans, or is one of those characters that
may stand between tokens. It is a statement about characters and not
about gaps, so it does not matter in which order the spans are listed.
-/

namespace ScriptTree

theorem byteLength_eq_zero_iff {text : List Char} :
    byteLength text = 0 ↔ text = [] := by
  cases text with
  | nil => simp
  | cons c text =>
    have := Char.utf8Size_pos c
    simp only [byteLength_cons, reduceCtorEq, iff_false]
    omega

theorem byteLength_pos {text : List Char} (h : text ≠ []) :
    0 < byteLength text :=
  Nat.pos_of_ne_zero (fun h0 => h (byteLength_eq_zero_iff.1 h0))

/-! ## Cuts -/

/-- **A place between two characters** of a text, or at one of its
ends. -/
def IsCut (text : List Char) (offset : Nat) : Prop :=
  ∃ a b, text = a ++ b ∧ byteLength a = offset

/-- The places where a text can be cut are those where it is cut. -/
theorem isSome_splitAtByte?_iff {text : List Char} {offset : Nat} :
    (splitAtByte? text offset).isSome = true ↔ IsCut text offset := by
  rw [Option.isSome_iff_exists, Prod.exists]
  simp only [splitAtByte?_eq_some_iff, IsCut]

instance (text : List Char) (offset : Nat) : Decidable (IsCut text offset) :=
  decidable_of_iff _ isSome_splitAtByte?_iff

theorem isCut_append (a b : List Char) : IsCut (a ++ b) (byteLength a) :=
  ⟨a, b, rfl, rfl⟩

theorem IsCut.le {text : List Char} {offset : Nat} (h : IsCut text offset) :
    offset ≤ byteLength text := by
  obtain ⟨a, b, rfl, rfl⟩ := h
  rw [byteLength_append]
  exact Nat.le_add_right _ _

/-- **A character in the middle of three texts** is one of the middle
text, as far as its offset says so. -/
theorem exists_of_append_eq {x y z a b : List Char} {c : Char}
    (h : x ++ (y ++ z) = a ++ c :: b) (hlo : byteLength x ≤ byteLength a)
    (hhi : byteLength a < byteLength x + byteLength y) :
    ∃ y₁ y₂, y = y₁ ++ c :: y₂ ∧ a = x ++ y₁ := by
  have hx : ∃ d, a = x ++ d ∧ y ++ z = d ++ c :: b := by
    rcases List.append_eq_append_iff.1 h with ⟨d, ha, hd⟩ | ⟨d, hx, hd⟩
    · exact ⟨d, ha, hd⟩
    · rw [hx, byteLength_append] at hlo
      obtain rfl : d = [] := byteLength_eq_zero_iff.1 (by omega)
      exact ⟨[], by simpa using hx.symm, hd.symm⟩
  obtain ⟨d, rfl, hd⟩ := hx
  rw [byteLength_append] at hhi
  rcases List.append_eq_append_iff.1 hd with ⟨e, rfl, _⟩ | ⟨e, rfl, he⟩
  · rw [byteLength_append] at hhi
    omega
  · cases e with
    | nil => simp at hhi
    | cons c' e =>
      obtain ⟨rfl, _⟩ := List.cons_eq_cons.1 he
      exact ⟨d, e, rfl, rfl⟩

/-- A cut behind the beginning of a character is behind its end. -/
theorem IsCut.le_of_lt {a b : List Char} {c : Char} {offset : Nat}
    (h : IsCut (a ++ c :: b) offset) (hlt : byteLength a < offset) :
    byteLength a + c.utf8Size ≤ offset := by
  obtain ⟨x, y, hxy, rfl⟩ := h
  obtain ⟨x₁, x₂, rfl, rfl⟩ := exists_of_append_eq (x := []) (y := x)
    (z := y) hxy.symm (Nat.zero_le _) (by simpa using hlt)
  simp only [byteLength_append, byteLength_cons]
  omega

/-! ## Spans between cuts -/

namespace Span

/-- **A span that holds text**: some, and none of its characters only in
part. -/
structure Fits (s : Span) (text : List Char) : Prop where
  /-- It begins where the text can be cut. -/
  isCut_start : IsCut text s.start
  /-- It ends where the text can be cut. -/
  isCut_stop : IsCut text s.stop
  /-- It is not empty. -/
  start_lt_stop : s.start < s.stop

theorem Fits.stop_le {s : Span} {text : List Char} (h : s.Fits text) :
    s.stop ≤ byteLength text :=
  h.isCut_stop.le

/-- **Whether a character lies in a span**: the character `c` behind the
front `a` of a text. -/
def Holds (s : Span) (a : List Char) (c : Char) : Prop :=
  s.start ≤ byteLength a ∧ byteLength a + c.utf8Size ≤ s.stop

end Span

/-! ## Covering a text -/

/-- **A character that may stand between two tokens**: a line break or a
blank. -/
def IsFiller (c : Char) : Prop := c = '\n' ∨ isBlank c = true

instance (c : Char) : Decidable (IsFiller c) :=
  inferInstanceAs (Decidable (_ ∨ _))

/-- **Spans that leave out filler alone**: between two offsets, each
character lies in one of the spans or is filler. -/
def Covers (spans : List Span) (text : List Char) (lo hi : Nat) : Prop :=
  ∀ a c b, text = a ++ c :: b → lo ≤ byteLength a → byteLength a < hi →
    (∃ s ∈ spans, s.Holds a c) ∨ IsFiller c

namespace Covers

variable {spans more : List Span} {text : List Char} {lo mid hi : Nat}

/-- Nothing has to be covered between an offset and itself. -/
theorem refl (spans : List Span) (text : List Char) (lo : Nat) :
    Covers spans text lo lo := by
  intro a c b _ hlo hhi
  omega

theorem trans (h₁ : Covers spans text lo mid)
    (h₂ : Covers spans text mid hi) : Covers spans text lo hi := by
  intro a c b hab hlo hhi
  by_cases h : byteLength a < mid
  · exact h₁ a c b hab hlo h
  · exact h₂ a c b hab (Nat.le_of_not_lt h) hhi

theorem mono (h : Covers spans text lo hi)
    (hsub : ∀ s ∈ spans, s ∈ more) : Covers more text lo hi := by
  intro a c b hab hlo hhi
  refine (h a c b hab hlo hhi).imp_left (fun ⟨s, hs, hc⟩ => ?_)
  exact ⟨s, hsub s hs, hc⟩

/-- Filler needs no span. -/
theorem of_filler {x y z : List Char} (h : ∀ c ∈ y, IsFiller c) :
    Covers [] (x ++ (y ++ z)) (byteLength x)
      (byteLength x + byteLength y) := by
  intro a c b hab hlo hhi
  obtain ⟨y₁, y₂, rfl, _⟩ := exists_of_append_eq hab hlo hhi
  exact .inr (h c (by simp))

/-- A span between cuts covers the text it holds. -/
theorem of_isCut {s : Span} (h : IsCut text s.stop) :
    Covers [s] text s.start s.stop := by
  rintro a c b rfl hlo hhi
  exact .inl ⟨s, List.mem_singleton_self s, hlo, h.le_of_lt hhi⟩

end Covers

end ScriptTree
