/-!
# Things in a row

A list is laid out in a row between two offsets if its items take up
places one behind the other, none of them empty. What it means to take
up a place is a parameter, since a comment, a node of a tree and a member
of an object do it each in their own way; the row itself is the same for
all of them.
-/

namespace ScriptTree

/-- **Items one behind the other** between two offsets: `R x b e` says that
`x` takes up the place from `b` to `e`. -/
def Row {α : Type} (R : α → Nat → Nat → Prop) (lo hi : Nat) :
    List α → Prop
  | [] => True
  | x :: xs => ∃ b e, lo ≤ b ∧ b < e ∧ e ≤ hi ∧ R x b e ∧ Row R e hi xs

namespace Row

variable {α β : Type} {R : α → Nat → Nat → Prop}
  {S : β → Nat → Nat → Prop} {lo lo' mid k hi hi' b e : Nat} {x : α}
  {xs ys : List α}

@[simp] theorem nil : Row R lo hi [] := trivial

/-- The place of a row can be widened. -/
theorem mono (h : Row R lo hi xs) (hlo : lo' ≤ lo) (hhi : hi ≤ hi') :
    Row R lo' hi' xs := by
  induction xs generalizing lo lo' with
  | nil => trivial
  | cons x xs ih =>
    obtain ⟨b, e, hb, hbe, he, hx, hxs⟩ := h
    exact ⟨b, e, Nat.le_trans hlo hb, hbe, Nat.le_trans he hhi, hx,
      ih hxs (Nat.le_refl e)⟩

/-- One item is a row. -/
theorem single (hx : R x b e) (hlo : lo ≤ b) (hbe : b < e) (hhi : e ≤ hi) :
    Row R lo hi [x] :=
  ⟨b, e, hlo, hbe, hhi, hx, trivial⟩

/-- **Two rows make one** if the second begins where the first ends, or
behind it. -/
theorem append (h₁ : Row R lo mid xs) (h₂ : Row R k hi ys)
    (hlo : lo ≤ k) (hmid : mid ≤ k) (hhi : mid ≤ hi) :
    Row R lo hi (xs ++ ys) := by
  induction xs generalizing lo with
  | nil => exact h₂.mono hlo (Nat.le_refl hi)
  | cons x xs ih =>
    obtain ⟨b, e, hb, hbe, he, hx, hxs⟩ := h₁
    exact ⟨b, e, hb, hbe, Nat.le_trans he hhi, hx,
      ih hxs (Nat.le_trans he hmid)⟩

/-- **A row of things that are rows themselves** is a row of what they are
made of. -/
theorem flatMap {f : α → List β} (h : Row R lo hi xs)
    (hf : ∀ x b e, b < e → R x b e → Row S b e (f x)) :
    Row S lo hi (xs.flatMap f) := by
  induction xs generalizing lo with
  | nil => trivial
  | cons x xs ih =>
    obtain ⟨b, e, hb, hbe, he, hx, hxs⟩ := h
    rw [List.flatMap_cons]
    exact ((hf x b e hbe hx).mono hb (Nat.le_refl e)).append (ih hxs)
      (by omega) (Nat.le_refl e) he

/-- What places mean to the items of a row may be changed. -/
theorem imp {T : α → Nat → Nat → Prop} (h : Row R lo hi xs)
    (hf : ∀ x ∈ xs, ∀ b e, R x b e → T x b e) : Row T lo hi xs := by
  induction xs generalizing lo with
  | nil => trivial
  | cons x xs ih =>
    obtain ⟨b, e, hb, hbe, he, hx, hxs⟩ := h
    exact ⟨b, e, hb, hbe, he, hf x List.mem_cons_self b e hx,
      ih hxs (fun y hy => hf y (List.mem_cons_of_mem x hy))⟩

/-- Some of the items of a row are a row. -/
theorem filter (h : Row R lo hi xs) (p : α → Bool) :
    Row R lo hi (xs.filter p) := by
  induction xs generalizing lo with
  | nil => trivial
  | cons x xs ih =>
    obtain ⟨b, e, hb, hbe, he, hx, hxs⟩ := h
    rw [List.filter_cons]
    split
    · exact ⟨b, e, hb, hbe, he, hx, ih hxs⟩
    · exact (ih hxs).mono (Nat.le_trans hb (Nat.le_of_lt hbe))
        (Nat.le_refl hi)

/-- A row seen as one of other things. -/
theorem map {f : α → β} (h : Row R lo hi xs)
    (hf : ∀ x b e, R x b e → S (f x) b e) : Row S lo hi (xs.map f) := by
  rw [List.map_eq_flatMap]
  exact h.flatMap (fun x b e hbe hx =>
    single (hf x b e hx) (Nat.le_refl b) hbe (Nat.le_refl e))

/-- What is known of an item of a row. -/
theorem exists_of_mem (h : Row R lo hi xs) (hx : x ∈ xs) :
    ∃ b e, lo ≤ b ∧ b < e ∧ e ≤ hi ∧ R x b e := by
  induction xs generalizing lo with
  | nil => exact absurd hx List.not_mem_nil
  | cons y xs ih =>
    obtain ⟨b, e, hb, hbe, he, hy, hxs⟩ := h
    rcases List.mem_cons.1 hx with rfl | hx
    · exact ⟨b, e, hb, hbe, he, hy⟩
    · obtain ⟨b', e', hb', hbe', he', hx'⟩ := ih hxs hx
      exact ⟨b', e', by omega, hbe', he', hx'⟩

/-- **Items of a row do not overlap**, and stand in order. -/
theorem pairwise (h : Row R lo hi xs) :
    xs.Pairwise (fun x y => ∃ b e b' e', R x b e ∧ R y b' e' ∧ e ≤ b') := by
  induction xs generalizing lo with
  | nil => exact .nil
  | cons x xs ih =>
    obtain ⟨b, e, hb, hbe, he, hx, hxs⟩ := h
    refine .cons (fun y hy => ?_) (ih hxs)
    obtain ⟨b', e', hb', _, _, hy'⟩ := hxs.exists_of_mem hy
    exact ⟨b, e, b', e', hx, hy', hb'⟩

end Row

end ScriptTree
