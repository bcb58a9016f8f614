import ScriptTree.Proofs.Law.Statement

/-!
# How deep scripts are

The nesting limit is the number of levels of the grammar a script is read
with. What a production makes over a grammar of so many levels fits into as
many, so it takes one more at most, and that is the level it counts. So no
way down the tree of a script enters more levels than the limit
(`parseWith_fitsIn`).

The fold is where the tree grows and no level is entered: what it makes is
an operation around the operand it has, and an operation is on the level of
its first operand. That is the only reason why a tree may have more nodes on
a way than the limit has levels, and a script of many operators has.
-/

namespace ScriptTree

open Node

variable {root : Context} {last : State} {k : Nat}

/-- **The law of the levels**: what is made over a grammar of so many levels
fits into them. So does what a node is made around; what else is below it
takes no more. -/
def Law.levels : Law where
  sits k seat e :=
    bif seat.enters then (Node.expression e).Takes k
    else (Node.expression e).FitsIn k
  stands k n := n.Takes k
  made k n := n.FitsIn k

/-- What takes any seat fits. -/
theorem Law.fitsIn_of_sits {seat : Seat} {e : Expression}
    (h : Law.levels.sits k seat e) : (Node.expression e).FitsIn k := by
  cases seat
  case deleted | behind | plain => exact Takes.fitsIn h
  all_goals exact h

/-- What takes a seat that is entered takes no more. -/
theorem Law.takes_of_sits {seat : Seat} {e : Expression}
    (henters : seat.enters = true) (h : Law.levels.sits k seat e) :
    (Node.expression e).Takes k := by
  cases seat
  case deleted | behind | plain => exact h
  all_goals cases henters

/-- **A node fits** if what is in its seats does, and the nodes below. -/
theorem Law.levels_over {n : Node} (seats : n.Seated (Law.levels.sits k))
    (below : Law.levels.Stand k n.children) : n.FitsIn k := by
  refine .intro (fun c hc => ?_) (fun c hc => ?_)
  · obtain ⟨e, rfl⟩ := exists_of_mem_core hc
    obtain ⟨seat, hseat, -⟩ := seats.core hc
    exact fitsIn_of_sits hseat
  · cases c with
    | expression e =>
      obtain ⟨seat, henters, hseat⟩ := seats.others hc
      exact takes_of_sits henters hseat
    | _ => exact below _ (mem_children_of_mem_others hc) rfl

/-- **The law of the levels holds** in every run. -/
theorem Law.levels_holds : Law.levels.Holds root last :=
  have hmended {k : Nat} (node : ErrorNode) :
      (Node.expression (.error node)).FitsIn k :=
    .over (List.forall_mem_singleton.2 (.leaf rfl rfl))
  { makes := Law.levels_over
    stand := fun {_ n} isLevel h => h.passes (by cases n <;> trivial)
    exported := fun _ h => h
    error := fun _ _ => FitsIn.passes
      (.over (List.forall_mem_singleton.2 (.leaf rfl rfl))) rfl
    mended := fun _ node => (hmended node).takes
    name := fun _ _ => FitsIn.takes
      (.over (List.forall_mem_singleton.2 (.leaf rfl rfl)))
    plain := id
    assigned := fun _ _ _ h => Parse.assignmentTarget_of
      (P := fun e => (Node.expression e).FitsIn _) h hmended
    deleted := fun _ _ _ h => Parse.deleteTarget_of
      (P := fun e => (Node.expression e).Takes _) h fun node => by
        -- What is deleted takes a level, so there is one for the error node.
        obtain ⟨j, hj, -⟩ := h
        exact (FitsIn.takes (k := 0) (hmended node)).mono
          (Nat.le_trans (Nat.le_add_right 1 j) hj)
    sits_succ := Takes.more
    stands_succ := Takes.more
    block := FitsIn.takes
    statement := fun _ _ _ _ _ h => h.takes
    folded := fun {_ _ _ _ t _} _ _ _ _ _ h => by
      unfold Seat.before
      split <;> exact h
    whole := fun _ _ _ _ _ _ _ _ _ _ _ h => h.takes }

/-! ## Scripts -/

/-- **The nesting limit bounds the tree**, for all options, operators and
texts: no way down enters more levels than the limit allows, where an
operation is on the level of its first operand, a function or class on the
level of the export that declares it, and what is left over from a statement
on none. -/
theorem parseWith_fitsIn (options : Options) (table : OperatorTable)
    (source : List Char) :
    (Node.program (parseWith options table source).program).FitsIn
      options.maxNestingDepth :=
  .over (List.forall_mem_map.2
    (runScript_lawful options table source Law.levels_holds))

end ScriptTree
