import ScriptTree.Proofs.Tree.Place

/-!
# What is known of the nodes of a tree

A property of statements is asked of every statement of a tree, wherever it
stands. Other nodes have it for free. A tree is made of the trees right
below its root, so it has a property everywhere if they do and the root has
it, too.
-/

namespace ScriptTree.Node

/-- What a statement about statements says of a node. -/
def Stated (Q : Statement → Prop) : Node → Prop
  | statement x => Q x
  | _ => True

/-- **A tree** has a property everywhere if its root has it and the trees
right below have it everywhere. -/
theorem Everywhere.intro {P : Node → Prop} {n : Node} (hn : P n)
    (h : ∀ c ∈ n.children, c.Everywhere P) : n.Everywhere P := by
  intro m hm
  rcases mem_all_iff.1 hm with rfl | ⟨c, hc, hm⟩
  · exact hn
  · exact h c hc m hm

end ScriptTree.Node
