import ScriptTree.Proofs.Tree.Place

/-!
# The levels of a tree

A statement, a block and an expression are a level each. On the way down a
tree not every one of them is a level of its own: an operator is folded onto
an operand that has been read already, and the operation takes no level but
the one of its operand. The same goes for a function or class that an export
declares, which is read as a part of the export.

`Node.Descends` follows the ways down a tree and counts the levels they
enter; a node *takes* so many levels if no way that begins with it enters
more (`Node.Takes`).
-/

namespace ScriptTree.Node

/-! ## Ways down a tree -/

/-- **The levels that a node is**, without those below it. What is left over
from a statement is none: text may be passed over at every depth. -/
def levels : Node → Nat
  | statement (.error _) => 0
  | statement _ | block _ | expression _ => 1
  | _ => 0

/-- **The part that a node was made around**: the operand that its operator
was folded onto, or what an export declares. -/
def core : Node → List Node
  | expression (.call e _ _) | expression (.member e _ _)
  | expression (.subscript e _ _) | expression (.assignment e _ _)
  | expression (.compoundAssignment _ e _ _)
  | expression (.conditional e _ _ _) | expression (.binary _ e _ _)
  | expression (.update _ false e _) | expression (.sequence e _ _)
  | statement (.exportNames (.declaration e) _) => [.expression e]
  | statement (.exportNames (.default (.classDef c)) _) =>
    [.expression (.classDef c)]
  | _ => []

/-- A node was made around an expression. -/
theorem exists_of_mem_core {n c : Node} (h : c ∈ n.core) :
    ∃ e, c = expression e := by
  unfold core at h
  split at h
  case h_12 => exact absurd h List.not_mem_nil
  all_goals exact ⟨_, List.mem_singleton.1 h⟩

/-- The other nodes right below. -/
def others (n : Node) : List Node := n.children.drop n.core.length

/-- **The nodes right below a node** are what it was made around, if
anything, and then the others. -/
theorem children_eq (n : Node) : n.children = n.core ++ n.others := by
  unfold others core
  split <;> rfl

/-- **The ways down a tree**, from a node to one below it, with the number
of levels that are entered on the way. -/
inductive Descends : Node → Node → Nat → Prop where
  /-- To stay enters nothing. -/
  | stay (n : Node) : Descends n n 0
  /-- What a node was made around is on the level of the node. -/
  | core {n c m : Node} {k : Nat} (part : c ∈ n.core)
      (below : Descends c m k) : Descends n m k
  /-- All else is entered. -/
  | enter {n c m : Node} {k : Nat} (part : c ∈ n.others)
      (below : Descends c m k) : Descends n m (c.levels + k)

/-- **Each node below a node is on a way down.** -/
theorem Descends.of_mem_all {n m : Node} (h : m ∈ n.all) :
    ∃ k, n.Descends m k := by
  rcases mem_all_iff.1 h with rfl | ⟨c, hc, hm⟩
  · exact ⟨0, .stay m⟩
  have hlt := sizeOf_child_lt hc
  obtain ⟨k, hway⟩ := Descends.of_mem_all hm
  rw [children_eq] at hc
  rcases List.mem_append.1 hc with hcore | hother
  · exact ⟨k, .core hcore hway⟩
  · exact ⟨c.levels + k, .enter hother hway⟩
termination_by sizeOf n

/-! ## Room for a tree -/

/-- **The nodes below fit into so many levels**: no way down enters more. -/
def FitsIn (k : Nat) (n : Node) : Prop := ∀ m j, n.Descends m j → j ≤ k

/-- **A node takes at most so many levels**, itself included. -/
def Takes (k : Nat) (n : Node) : Prop := ∃ j, n.levels + j ≤ k ∧ n.FitsIn j

/-- **Room for each of some nodes.** -/
def Room (k : Nat) (cs : List Node) : Prop := ∀ c ∈ cs, c.Takes k

variable {n : Node} {k l : Nat}

/-- **A node fits where its parts do.** -/
theorem FitsIn.intro (hcore : ∀ c ∈ n.core, c.FitsIn k)
    (hothers : Room k n.others) : n.FitsIn k := by
  intro m j hway
  cases hway with
  | stay => exact Nat.zero_le k
  | core part below => exact hcore _ part m j below
  | enter part below =>
    obtain ⟨l, hl, hfits⟩ := hothers _ part
    exact Nat.le_trans (Nat.add_le_add_left (hfits m _ below) _) hl

theorem FitsIn.mono (h : n.FitsIn k) (hkl : k ≤ l) : n.FitsIn l :=
  fun m j hway => Nat.le_trans (h m j hway) hkl

theorem Takes.mono (h : n.Takes k) (hkl : k ≤ l) : n.Takes l := by
  obtain ⟨j, hj, hfits⟩ := h
  exact ⟨j, Nat.le_trans hj hkl, hfits⟩

theorem Takes.more (h : n.Takes k) : n.Takes (k + 1) :=
  h.mono (Nat.le_succ k)

/-- **No node is more than one level.** -/
theorem levels_le_one (n : Node) : n.levels ≤ 1 := by
  unfold levels
  split <;> decide

/-- **A level more** is enough for a node above all that fits. -/
theorem FitsIn.takes (h : n.FitsIn k) : n.Takes (k + 1) :=
  ⟨k, Nat.add_comm _ _ ▸ Nat.add_le_add_left n.levels_le_one k, h⟩

/-- What is no level takes those below it. -/
theorem FitsIn.passes (h : n.FitsIn k) (hn : n.levels = 0) : n.Takes k :=
  ⟨k, Nat.le_of_eq (hn ▸ Nat.zero_add k), h⟩

/-- What takes so many levels has no more below it. -/
theorem Takes.fitsIn (h : n.Takes k) : n.FitsIn k := by
  obtain ⟨j, hj, hfits⟩ := h
  exact hfits.mono (Nat.le_trans (Nat.le_add_left j _) hj)

/-- **A node fits above parts** that there is room for. -/
theorem FitsIn.over (h : Room k n.children) : n.FitsIn k := by
  rw [children_eq] at h
  exact .intro
    (fun c hc => (h c (List.mem_append_left _ hc)).fitsIn)
    (fun c hc => h c (List.mem_append_right _ hc))

/-- **A leaf that is no level** takes none. -/
theorem Takes.leaf (hn : n.levels = 0) (hchildren : n.children = []) :
    n.Takes k :=
  (FitsIn.over (hchildren ▸ List.forall_mem_nil _)).passes hn

end ScriptTree.Node
