import Mathlib.Data.Set.Lattice
import ScriptTree.Proofs.Token.Delimiter
import ScriptTree.Proofs.Token.Walk

/-!
# Patches in a text

Two texts of the same length may be the same but for some pieces, and each
of these pieces is trivia in both: a line break in the one and a space in
the other, or a comment and spaces (`Filling`). What is left of the two
texts behind an offset is `Patched`.

A piece of the one text in which no patch begins is a piece of the other
(`Patched.exists_piece`), and so the lexeme there is the same. A piece at
whose end no patch is cut through has a piece of the same length in its
place (`Patched.exists_cut`).

Line breaks that are in both texts may still differ in whether a chain goes
on behind them. The offsets where this is so and of account are the **spots**
of the patches, together with the line breaks that are patched themselves.
-/

namespace ScriptTree

variable {w w' y z cs r r' : List Char} {c : Char} {n offset : Nat}

/-! ## Comments -/

/-- **A text that is read as a comment** where something is behind it. -/
def IsComment (w behind : List Char) : Prop :=
  w.head? = some '/' ∧ Lexeme.atFront true '/' (w.tail ++ behind)
    = ⟨.comment, w.length - 1, none⟩

instance (w behind : List Char) : Decidable (IsComment w behind) :=
  inferInstanceAs (Decidable (_ ∧ _))

/-- What a lone slash would mean does not matter to a comment. -/
theorem Lexeme.atFront_of_comment {slashDivides : Bool}
    (h : (atFront slashDivides c cs).kind = .comment) (b : Bool) :
    atFront b c cs = atFront slashDivides c cs := by
  obtain rfl := eq_slash_of_comment h
  obtain ⟨rest, rfl | rfl⟩ := exists_of_comment h <;> rfl

/-- **A comment that goes on to the end of its line** ends there. -/
theorem Lexeme.endsLine_of_comment {slashDivides : Bool}
    (h : atFront slashDivides '/' cs = ⟨.comment, n, none⟩)
    (hhead : cs.head? = some '/') : EndsLine (cs.drop n) := by
  obtain ⟨rest, rfl⟩ := List.head?_eq_some_iff.1 hhead
  obtain rfl : 1 + lineExtent rest = n := congrArg Lexeme.extent h
  obtain ⟨x, behind, rfl, hends, hlength, -⟩ := exists_of_lineExtent rest
  rw [hlength, Nat.add_comm, List.drop_succ_cons, List.drop_left]
  exact hends

/-- **The lexeme of a comment** is the comment. -/
theorem IsComment.exists_lexeme (h : IsComment w y) :
    ∃ cs, w = '/' :: cs ∧ ∀ slashDivides,
      Lexeme.atFront slashDivides '/' (cs ++ y)
        = ⟨.comment, cs.length, none⟩ := by
  obtain ⟨hhead, hlexeme⟩ := h
  obtain ⟨cs, rfl⟩ := List.head?_eq_some_iff.1 hhead
  exact ⟨cs, rfl, fun b => (Lexeme.atFront_of_comment
    (congrArg Lexeme.kind hlexeme) b).trans hlexeme⟩

/-- As many spaces as a text has bytes. -/
def blanked (w : List Char) : List Char :=
  List.replicate (byteLength w) ' '

theorem byteLength_blanked (w : List Char) :
    byteLength (blanked w) = byteLength w := by
  have hspaces (n : Nat) : byteLength (List.replicate n ' ') = n := by
    induction n with
    | zero => rfl
    | succ n ih =>
      rw [List.replicate_succ, byteLength_cons, ih]
      exact Nat.add_comm 1 n
  exact hspaces _

theorem isBlank_blanked : ∀ c ∈ blanked w, isBlank c = true := by
  intro c hc
  rw [List.eq_of_mem_replicate hc]
  rfl

/-- A text that is not empty leaves spaces. -/
theorem exists_blanked (h : w ≠ []) : ∃ v, blanked w = ' ' :: v := by
  obtain ⟨n, hn⟩ := Nat.exists_eq_succ_of_ne_zero
    (Nat.ne_of_gt (byteLength_pos h))
  refine ⟨List.replicate n ' ', ?_⟩
  rw [blanked, hn]
  rfl

/-! ## What stands in the place of what -/

/-- **What a patch puts in the place of what.** -/
inductive Filling where
  /-- A space in the place of a line break. -/
  | lineBreak
  /-- Spaces in the place of a comment. -/
  | comment
  /-- A comment in the place of spaces. -/
  | spaces

/-- **A patch fits**: it is `w` in the one text, with `y` behind it, and `w'`
in the other, with `z` behind it. -/
inductive Filling.Fits : (filling : Filling) → (w y w' z : List Char) → Prop
    where
  /-- A line break has become a space. -/
  | lineBreak (y z : List Char) : Fits .lineBreak ['\n'] y [' '] z
  /-- A comment has become spaces. -/
  | comment {w y : List Char} (h : IsComment w y) (z : List Char) :
      Fits .comment w y (blanked w) z
  /-- Spaces have become a comment. -/
  | spaces {w' z : List Char} (h : IsComment w' z) (y : List Char) :
      Fits .spaces (blanked w') y w' z

namespace Filling.Fits

variable {filling : Filling}

theorem byteLength_eq (h : filling.Fits w y w' z) :
    byteLength w' = byteLength w := by
  cases h with
  | lineBreak => rfl
  | comment => exact byteLength_blanked w
  | spaces => exact (byteLength_blanked w').symm

/-- **The characters it begins with** in both texts. -/
theorem exists_cons (h : filling.Fits w y w' z) :
    (filling = .lineBreak ∧ w = ['\n'] ∧ w' = [' '])
      ∨ (filling = .comment ∧ (∃ v, w = '/' :: v) ∧ ∃ v, w' = ' ' :: v)
      ∨ (filling = .spaces ∧ (∃ v, w = ' ' :: v) ∧ ∃ v, w' = '/' :: v) := by
  cases h with
  | lineBreak => exact .inl ⟨rfl, rfl, rfl⟩
  | comment h =>
    obtain ⟨cs, rfl, -⟩ := h.exists_lexeme
    exact .inr (.inl ⟨rfl, ⟨cs, rfl⟩, exists_blanked (List.cons_ne_nil _ _)⟩)
  | spaces h =>
    obtain ⟨cs, rfl, -⟩ := h.exists_lexeme
    exact .inr (.inr ⟨rfl, exists_blanked (List.cons_ne_nil _ _), cs, rfl⟩)

/-- No patch is empty. -/
theorem ne_nil (h : filling.Fits w y w' z) : w ≠ [] := by
  rcases h.exists_cons with ⟨-, rfl, -⟩ | ⟨-, ⟨v, rfl⟩, -⟩ | ⟨-, ⟨v, rfl⟩, -⟩
  all_goals exact List.cons_ne_nil _ _

end Filling.Fits

/-! ## What is left of two texts -/

/-- **The patches of a text.** -/
structure Patches where
  /-- What they put in the place of what. -/
  filling : Filling
  /-- Where they are. -/
  spans : Set Span
  /-- Where line breaks are of account. -/
  breaks : Set Nat
  /-- Where the texts may differ in whether a line break ends a
  statement. -/
  spots : Set Nat

/-- **What is left of two texts behind an offset**, if the one is patched
to be the other. -/
inductive Patched (X : Patches) : Nat → List Char → List Char → Prop where
  /-- The texts end. -/
  | nil {offset : Nat} : Patched X offset [] []
  /-- The same character is in both. Behind a line break that is of account
  and no spot a chain goes on in both texts or in neither. -/
  | same {offset : Nat} {r r' : List Char} (c : Char)
      (chain : c = '\n' → offset ∈ X.breaks → offset ∉ X.spots →
        Scanner.continuesChain r' = Scanner.continuesChain r)
      (rest : Patched X (offset + c.utf8Size) r r') :
      Patched X offset (c :: r) (c :: r')
  /-- Here is a patch. -/
  | patch {offset : Nat} {w y w' z : List Char}
      (fits : X.filling.Fits w y w' z)
      (mem : ⟨offset, offset + byteLength w⟩ ∈ X.spans)
      (spot : X.filling = .lineBreak → offset ∈ X.spots)
      (rest : Patched X (offset + byteLength w) y z) :
      Patched X offset (w ++ y) (w' ++ z)

namespace Patched

variable {X : Patches}

/-- Both texts end where one does. -/
theorem nil_eq (h : Patched X offset [] r') : r' = [] := by
  generalize hr : [] = r at h
  cases h with
  | nil => rfl
  | same c => exact absurd hr.symm (List.cons_ne_nil _ _)
  | patch fits =>
    exact absurd (List.append_eq_nil_iff.1 hr.symm).1 fits.ne_nil

/-- **Where one text goes on**, either the other goes on with the same
character, or here is a patch. -/
theorem cons (h : Patched X offset (c :: cs) r') :
    (∃ cs', r' = c :: cs'
        ∧ (c = '\n' → offset ∈ X.breaks → offset ∉ X.spots →
          Scanner.continuesChain cs' = Scanner.continuesChain cs)
        ∧ Patched X (offset + c.utf8Size) cs cs')
      ∨ ∃ w y w' z, c :: cs = w ++ y ∧ r' = w' ++ z
        ∧ X.filling.Fits w y w' z
        ∧ (⟨offset, offset + byteLength w⟩ : Span) ∈ X.spans
        ∧ (X.filling = .lineBreak → offset ∈ X.spots)
        ∧ Patched X (offset + byteLength w) y z := by
  generalize hr : c :: cs = r at h
  cases h with
  | nil => exact absurd hr (List.cons_ne_nil _ _)
  | same d chain rest =>
    obtain ⟨rfl, rfl⟩ := List.cons.inj hr
    exact .inl ⟨_, rfl, chain, rest⟩
  | patch fits mem spot rest =>
    exact .inr ⟨_, _, _, _, rfl, rfl, fits, mem, spot, rest⟩

/-- No byte is lost. -/
theorem byteLength_eq (h : Patched X offset r r') :
    byteLength r' = byteLength r := by
  induction h with
  | nil => rfl
  | same c _ _ ih => rw [byteLength_cons, byteLength_cons, ih]
  | patch fits _ _ _ ih =>
    rw [byteLength_append, byteLength_append, ih, fits.byteLength_eq]

/-- What follows in the other text may follow in its place. -/
theorem mayFollow (h : Patched X offset r r') : MayFollow r r' := by
  induction h with
  | nil => exact .refl []
  | same c _ _ ih => exact ih.append_left [c]
  | @patch _ w y w' z fits =>
    refine ⟨[], List.nil_prefix, .inr ?_⟩
    rcases fits.exists_cons with ⟨-, -, rfl⟩ | ⟨-, -, v, rfl⟩ | ⟨-, -, v, rfl⟩
    · exact ⟨' ', z, rfl, rfl⟩
    · exact ⟨' ', v ++ z, rfl, rfl⟩
    · exact ⟨'/', v ++ z, rfl, rfl⟩

/-- **A slash in the other text** is one in this text, or begins a comment in
the place of spaces. -/
theorem head_of_slash (h : Patched X offset r r')
    (hslash : r'.head? = some '/') : r.head? = some '/'
      ∨ X.filling = .spaces ∧ r.head? = some ' '
        ∧ ∃ p ∈ X.spans, p.start = offset := by
  cases h with
  | nil => exact absurd hslash (by simp)
  | same c => exact .inl hslash
  | patch fits mem =>
    rcases fits.exists_cons with ⟨-, -, rfl⟩ | ⟨-, -, v, rfl⟩ |
      ⟨hfilling, ⟨v, rfl⟩, -⟩
    · exact absurd hslash (by simp)
    · exact absurd hslash (by simp)
    · exact .inr ⟨hfilling, rfl, _, mem, rfl⟩

/-- **A line that ends here** ends in the other text, if no line break is
patched here. -/
theorem endsLine (h : Patched X offset r r') (hends : EndsLine r)
    (hline : X.filling = .lineBreak → ∀ p ∈ X.spans, p.start ≠ offset) :
    EndsLine r' := by
  cases h with
  | nil => exact endsLine_nil
  | same c => exact hends
  | patch fits mem =>
    rcases fits.exists_cons with ⟨hfilling, -, -⟩ | ⟨-, ⟨v, rfl⟩, -⟩ |
      ⟨-, ⟨v, rfl⟩, -⟩
    · exact absurd rfl (hline hfilling _ mem)
    · exact absurd (hends '/' rfl) (by decide)
    · exact absurd (hends ' ' rfl) (by decide)

/-- **A piece in which no patch begins** is a piece of both. -/
theorem exists_piece (h : Patched X offset r r') (hn : n ≤ r.length)
    (hspans : ∀ p ∈ X.spans, p.start < p.stop → offset ≤ p.start →
      offset + byteLength (r.take n) ≤ p.start) :
    ∃ p y z, r = p ++ y ∧ r' = p ++ z ∧ p.length = n
      ∧ Patched X (offset + byteLength p) y z := by
  induction h generalizing n with
  | nil =>
    obtain rfl : n = 0 := Nat.le_zero.1 hn
    exact ⟨[], [], [], rfl, rfl, rfl, .nil⟩
  | @same offset r r' c chain rest ih =>
    cases n with
    | zero => exact ⟨[], _, _, rfl, rfl, rfl, .same c chain rest⟩
    | succ n =>
      obtain ⟨p, y, z, rfl, rfl, rfl, hrest⟩ :=
        ih (Nat.le_of_succ_le_succ hn) (fun p hp hpos hle => by
          have hspan := hspans p hp hpos (by omega)
          rw [List.take_succ_cons, byteLength_cons] at hspan
          omega)
      refine ⟨c :: p, y, z, rfl, rfl, rfl, ?_⟩
      rw [byteLength_cons, ← Nat.add_assoc]
      exact hrest
  | @patch offset w y w' z fits mem spot rest ih =>
    cases n with
    | zero => exact ⟨[], _, _, rfl, rfl, rfl, .patch fits mem spot rest⟩
    | succ n =>
      -- The patch would begin in the piece.
      have hpos := byteLength_pos fits.ne_nil
      have hspan :=
        hspans _ mem (Nat.lt_add_of_pos_right hpos) (Nat.le_refl _)
      have hne : (w ++ y).take (n + 1) ≠ [] := by
        obtain ⟨d, ds, hds⟩ := List.exists_cons_of_ne_nil
          (List.append_ne_nil_of_left_ne_nil fits.ne_nil y)
        rw [hds, List.take_succ_cons]
        exact List.cons_ne_nil _ _
      have htake := byteLength_pos hne
      exact absurd hspan (Nat.not_le.2 (Nat.lt_add_of_pos_right htake))

/-- **A piece at whose end no patch is cut through** has a piece of the same
length in its place. -/
theorem exists_cut (h : Patched X offset r r') (hn : n ≤ r.length)
    (hspans : ∀ p ∈ X.spans, p.stop ≤ offset + byteLength (r.take n)
      ∨ offset + byteLength (r.take n) ≤ p.start) :
    ∃ v z, r' = v ++ z ∧ byteLength v = byteLength (r.take n)
      ∧ Patched X (offset + byteLength v) (r.drop n) z := by
  induction h generalizing n with
  | nil =>
    obtain rfl : n = 0 := Nat.le_zero.1 hn
    exact ⟨[], [], rfl, rfl, .nil⟩
  | @same offset r r' c chain rest ih =>
    cases n with
    | zero => exact ⟨[], _, rfl, rfl, .same c chain rest⟩
    | succ n =>
      rw [List.take_succ_cons, byteLength_cons, ← Nat.add_assoc] at hspans
      obtain ⟨v, z, rfl, hlength, hrest⟩ :=
        ih (Nat.le_of_succ_le_succ hn) hspans
      refine ⟨c :: v, z, rfl, ?_, ?_⟩
      · rw [List.take_succ_cons, byteLength_cons, byteLength_cons, hlength]
      · rw [byteLength_cons, ← Nat.add_assoc, List.drop_succ_cons]
        exact hrest
  | @patch offset w y w' z fits mem spot rest ih =>
    rcases Nat.lt_or_ge n w.length with hlt | hge
    · -- The end is in the patch, and so at its front.
      have hspan := hspans _ mem
      have hlength := congrArg byteLength (List.take_append_drop n w)
      rw [byteLength_append] at hlength
      rw [List.take_append_of_le_length hlt.le] at hspan ⊢
      have hdrop : 0 < byteLength (w.drop n) := byteLength_pos (by
        rw [ne_eq, List.drop_eq_nil_iff]
        omega)
      dsimp only at hspan
      have hzero : byteLength (w.take n) = 0 := by omega
      have htake : w.take n = [] := by
        by_contra hne
        exact absurd hzero (byteLength_pos hne).ne'
      have hn0 : n = 0 := by
        rcases List.take_eq_nil_iff.1 htake with h0 | h0
        · exact h0
        · exact absurd h0 fits.ne_nil
      subst hn0
      exact ⟨[], _, rfl, rfl, .patch fits mem spot rest⟩
    · obtain ⟨k, rfl⟩ := Nat.exists_eq_add_of_le hge
      rw [List.take_length_add_append, byteLength_append,
        ← Nat.add_assoc] at hspans
      rw [List.length_append] at hn
      obtain ⟨v, z', rfl, hlength, hrest⟩ := ih (by omega) hspans
      refine ⟨w' ++ v, z', (List.append_assoc _ _ _).symm, ?_, ?_⟩
      · rw [List.take_length_add_append, byteLength_append, byteLength_append,
          hlength, fits.byteLength_eq]
      · rw [byteLength_append, fits.byteLength_eq, ← Nat.add_assoc,
          List.drop_length_add_append]
        exact hrest

/-- A comment in which no patch begins is a comment in the other text. -/
theorem exists_same_comment {slashDivides : Bool} {stop : Nat}
    (h : Patched X offset cs r')
    (hlexeme : Lexeme.atFront slashDivides '/' cs = ⟨.comment, n, none⟩)
    (hstop : stop = offset + byteLength (cs.take n))
    (hspans : ∀ p ∈ X.spans, p.start < p.stop → offset ≤ p.start →
      stop ≤ p.start)
    (hline : X.filling = .lineBreak → cs.head? = some '/' →
      ∀ p ∈ X.spans, p.start ≠ stop) :
    ∃ v z, r' = v ++ z ∧ byteLength v = byteLength (cs.take n)
      ∧ Patched X stop (cs.drop n) z ∧ IsComment ('/' :: v) z := by
  have hextent := Lexeme.atFront_extent_le slashDivides '/' cs
  rw [hlexeme] at hextent
  rw [hstop] at hspans
  obtain ⟨v, y, z, rfl, rfl, rfl, hbehind⟩ := h.exists_piece hextent hspans
  rw [List.take_left] at hstop ⊢
  rw [List.drop_left]
  rw [← hstop] at hbehind
  rw [← Lexeme.atFront_of_comment (congrArg Lexeme.kind hlexeme) true]
    at hlexeme
  refine ⟨v, z, rfl, rfl, hbehind, rfl, ?_⟩
  refine Lexeme.comment_follow (fun hhead d z' hz => .inl ?_) hlexeme
  have hopens : (v ++ y).head? = some '/' := by
    rw [List.head?_append, show v.head? = _ from hhead]
    rfl
  have hends := Lexeme.endsLine_of_comment hlexeme hopens
  rw [List.drop_left] at hends
  exact hbehind.endsLine hends (fun hf => hline hf hopens) d (by rw [hz]; rfl)

/-- **A comment in which patches lie** is one in the other text if what
stands in its place is a comment. -/
theorem exists_other_comment {slashDivides : Bool} {stop : Nat}
    (h : Patched X offset cs r')
    (hlexeme : Lexeme.atFront slashDivides '/' cs = ⟨.comment, n, none⟩)
    (hstop : stop = offset + byteLength (cs.take n))
    (hspans : ∀ p ∈ X.spans, p.stop ≤ stop ∨ stop ≤ p.start)
    (hcomment : ∀ v z, r' = v ++ z → offset + byteLength v = stop →
      IsComment ('/' :: v) [])
    (hline : X.filling = .lineBreak → cs.head? = some '/' →
      ∀ p ∈ X.spans, p.start ≠ stop) :
    ∃ v z, r' = v ++ z ∧ byteLength v = byteLength (cs.take n)
      ∧ Patched X stop (cs.drop n) z ∧ IsComment ('/' :: v) z := by
  have hextent := Lexeme.atFront_extent_le slashDivides '/' cs
  rw [hlexeme] at hextent
  rw [hstop] at hspans
  obtain ⟨v, z, rfl, hlength, hbehind⟩ := h.exists_cut hextent hspans
  rw [hlength, ← hstop] at hbehind
  refine ⟨v, z, rfl, hlength, hbehind, rfl, ?_⟩
  refine Lexeme.comment_follow (fun hhead d z' hz => .inl ?_)
    (hcomment v z rfl (by rw [hlength, hstop])).2
  -- Two slashes in the other text are two slashes in this one.
  have hopens : cs.head? = some '/' := by
    have hslash : (v ++ z).head? = some '/' := by
      rw [List.head?_append, show v.head? = _ from hhead]
      rfl
    refine (h.head_of_slash hslash).resolve_right (fun hspaces => ?_)
    obtain ⟨rest, rfl | rfl⟩ :=
      Lexeme.exists_of_comment (congrArg Lexeme.kind hlexeme)
    · exact absurd hspaces.2.1 (by simp)
    · exact absurd hspaces.2.1 (by simp)
  exact hbehind.endsLine (Lexeme.endsLine_of_comment hlexeme hopens)
    (fun hf => hline hf hopens) d (by rw [hz]; rfl)

/-- **In the place of a comment** there are spaces, or a comment again. Where
another patch lies in it, it has to be known that it is one. -/
theorem exists_comment {slashDivides : Bool} {stop : Nat}
    (h : Patched X offset (c :: cs) r')
    (hlexeme : Lexeme.atFront slashDivides c cs = ⟨.comment, n, none⟩)
    (hstop : stop = offset + byteLength ((c :: cs).take (n + 1)))
    (hspans : ∀ p ∈ X.spans, p = ⟨offset, stop⟩ ∨ stop ≤ p.start
      ∨ p.stop ≤ offset ∨ offset ≤ p.start ∧ p.stop ≤ stop
        ∧ ∀ w' z, r' = w' ++ z → offset + byteLength w' = stop →
          IsComment w' [])
    (hline : X.filling = .lineBreak → cs.head? = some '/' →
      ∀ p ∈ X.spans, p.start ≠ stop) :
    ∃ w' z, r' = w' ++ z
      ∧ byteLength w' = byteLength ((c :: cs).take (n + 1))
      ∧ Patched X stop (cs.drop n) z
      ∧ (w' = blanked ((c :: cs).take (n + 1)) ∨ IsComment w' z) := by
  obtain rfl : c = '/' := Lexeme.eq_slash_of_comment (by rw [hlexeme])
  rcases h.cons with ⟨cs', rfl, -, hrest⟩ |
    ⟨w, y, w', z, hcs, rfl, fits, -, -, hrest⟩
  · rw [List.take_succ_cons, byteLength_cons, ← Nat.add_assoc] at hstop
    obtain ⟨v, z, rfl, hlength, hbehind, hcomment⟩ :
        ∃ v z, cs' = v ++ z ∧ byteLength v = byteLength (cs.take n)
          ∧ Patched X stop (cs.drop n) z ∧ IsComment ('/' :: v) z := by
      by_cases hwhole : ∀ p ∈ X.spans, p = ⟨offset, stop⟩ ∨ stop ≤ p.start
          ∨ p.stop ≤ offset
      · refine hrest.exists_same_comment hlexeme hstop
          (fun p hp hpos hle => ?_) hline
        rcases hwhole p hp with rfl | hs | hs
        · exact absurd hle (by simp [Char.utf8Size])
        · exact hs
        · omega
      · obtain ⟨p, hp, hnot⟩ : ∃ p ∈ X.spans, ¬(p = ⟨offset, stop⟩
            ∨ stop ≤ p.start ∨ p.stop ≤ offset) := by
          simpa only [not_forall, exists_prop] using hwhole
        rw [not_or, not_or] at hnot
        have hsame := ((((hspans p hp).resolve_left hnot.1).resolve_left
          hnot.2.1).resolve_left hnot.2.2).2.2
        refine hrest.exists_other_comment hlexeme hstop (fun p hp => ?_)
          (fun v z hr hlength => hsame _ z (by rw [hr]; rfl) ?_) hline
        · rcases hspans p hp with rfl | hs | hs | ⟨-, hs, -⟩
          · exact .inl (Nat.le_refl _)
          · exact .inr hs
          · exact .inl (by omega)
          · exact .inl hs
        · rw [byteLength_cons, ← Nat.add_assoc]
          exact hlength
    refine ⟨'/' :: v, z, rfl, ?_, hbehind, .inr hcomment⟩
    rw [List.take_succ_cons, byteLength_cons, byteLength_cons, hlength]
  · have hlength := fits.byteLength_eq
    rcases fits.exists_cons with ⟨-, rfl, -⟩ | ⟨hf, -, -⟩ | ⟨-, ⟨v, rfl⟩, -⟩
    · exact absurd (List.cons.inj hcs).1 (by decide)
    · -- The patch is the comment.
      rw [hf] at fits
      cases fits with
      | comment hcomment =>
        obtain ⟨v, rfl, hsame⟩ := hcomment.exists_lexeme
        rw [List.cons_append] at hcs
        obtain ⟨-, rfl⟩ := List.cons.inj hcs
        obtain rfl : v.length = n := by
          rw [hsame slashDivides] at hlexeme
          exact congrArg Lexeme.extent hlexeme
        rw [List.take_succ_cons, List.take_left] at hstop ⊢
        refine ⟨_, z, rfl, hlength, ?_, .inl rfl⟩
        rw [hstop, List.drop_left]
        exact hrest
    · exact absurd (List.cons.inj hcs).1 (by decide)

/-! ## Texts that are patched -/

/-- **The same piece in front** changes nothing, if its line breaks are spots
or of no account, or the chain goes on behind them in both texts or in
neither. -/
theorem append_left (h : Patched X (offset + byteLength w) y z)
    (hchain : ∀ u v, w = u ++ '\n' :: v →
      offset + byteLength u ∈ X.breaks → offset + byteLength u ∉ X.spots →
      Scanner.continuesChain (v ++ z) = Scanner.continuesChain (v ++ y)) :
    Patched X offset (w ++ y) (w ++ z) := by
  induction w generalizing offset with
  | nil => exact h
  | cons c w ih =>
    rw [byteLength_cons, ← Nat.add_assoc] at h
    refine .same c (fun hc => ?_) (ih h (fun u v hw => ?_))
    · subst hc
      exact hchain [] w rfl
    · have hbehind := hchain (c :: u) v (by rw [hw]; rfl)
      rwa [byteLength_cons, ← Nat.add_assoc] at hbehind

theorem refl (X : Patches) (offset : Nat) (r : List Char) :
    Patched X offset r r := by
  induction r generalizing offset with
  | nil => exact .nil
  | cons c r ih => exact .same c (fun _ _ _ => rfl) (ih _)

/-- **Comments for spaces**, and not spaces for comments. -/
theorem swap {spans : Set Span} {breaks spots : Set Nat}
    (h : Patched ⟨.comment, spans, breaks, spots⟩ offset r r') :
    Patched ⟨.spaces, spans, breaks, spots⟩ offset r' r := by
  induction h with
  | nil => exact .nil
  | same c chain _ ih =>
    exact .same c (fun hc hbreak hspot => (chain hc hbreak hspot).symm) ih
  | @patch offset w y w' z fits mem spot _ ih =>
    have hlength := fits.byteLength_eq
    cases fits with
    | comment hcomment =>
      rw [← hlength] at mem ih
      exact .patch (.spaces hcomment z) mem Filling.noConfusion ih

end Patched

end ScriptTree
