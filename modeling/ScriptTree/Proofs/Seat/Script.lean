import ScriptTree.Proofs.Law.Statement

/-!
# Who sits in a script

What has been folded may take the seat before the next token, and what a
fold ends with may take any other. So what holds of the one in the first
seat and of the other in the rest (`Expression.Settles`) holds of whatever
takes a seat in a tree: in every tree the seats are taken by what has been
folded, by functions and classes, by names, and by error nodes
(`parseWith_seated`).
-/

namespace ScriptTree

open Node State Parse

variable {root : Context} {last : State} {A : Seat → Expression → Prop}

/-- **What holds of the expressions in the seats**, in a run with a given
last state. -/
structure Expression.Settles (root : Context) (last : State)
    (A : Seat → Expression → Prop) : Prop where
  /-- Error nodes have it. -/
  error (node : ErrorNode) : A .plain (.error node)
  /-- Names have it. -/
  name (id : Identifier) : A .plain (.identifier id)
  /-- What may sit behind an operator may sit anywhere. -/
  plain {e : Expression} (h : A .behind e) : A .plain e
  /-- Functions and classes that are exported have it. -/
  exported {e : Expression} (like : e.isDeclarationLike = true) :
    A .exported e
  /-- What is left of a first operand is assigned to. -/
  assigned {ctx : Context} {s : State} {e : Expression}
    (hctx : root.Within ctx) (hs : s.Reached root)
    (hlast : Acts root (assignmentTarget e ctx s).2 last)
    (h : A .operand e) : A .assigned (assignmentTarget e ctx s).1
  /-- What is left of an operand behind an operator is deleted. -/
  deleted {ctx : Context} {s : State} {e : Expression}
    (hctx : root.Within ctx) (hs : s.Reached root)
    (hlast : Acts root (deleteTarget e ctx s).2 last)
    (h : A .behind e) : A .deleted (deleteTarget e ctx s).1
  /-- What has been folded has it, in the seat before the next token. -/
  folded (n : Nat) {min : Precedence} {ctx : Context} {s t : State}
    {e : Expression} (hctx : root.Within ctx) (hs : s.Reached root)
    (hst : Acts root s t) (hfold : Folded (Grammar.levels n) min ctx s e t)
    (hlast : Acts root t last) : A (.before t.current) e
  /-- What the fold ends with has it, at the levels a grammar asks for. -/
  whole (n : Nat) {min : Precedence} (hmin : root.table.Asks min)
    {ctx : Context} {s t : State} {e : Expression} (hctx : root.Within ctx)
    (hs : s.Reached root) (hst : Acts root s t)
    (hfold : Folded (Grammar.levels n) min ctx s e t)
    (hlast : Acts root t last)
    (hnone : byteLength root.source < root.turns →
      t.operator? ctx min = none) : A .behind e

/-- **The law of the seats**, at every level the same: in the tree of what
takes a seat, and in that of any other node, all seats are taken. -/
def Law.seats (A : Seat → Expression → Prop) : Law where
  sits _ seat e := A seat e ∧ (Node.expression e).Everywhere (Node.Seated A)
  stands _ n := n.Everywhere (Node.Seated A)
  made _ n := n.Everywhere (Node.Seated A)

theorem Law.seats_over {k : Nat} {n : Node}
    (seats : n.Seated ((Law.seats A).sits k))
    (below : (Law.seats A).Stand k n.children) :
    n.Everywhere (Node.Seated A) :=
  .intro (seats.mono fun _ _ h => h.1)
    (Law.forall_child seats below (fun _ _ h => h.2) fun _ h => h)

/-- **It holds** of what settles in the seats. -/
theorem Expression.Settles.holds (hA : Expression.Settles root last A) :
    (Law.seats A).Holds root last :=
  have herror (node : ErrorNode) : (Law.seats A).Stand 0 [.error node] :=
    .one (Law.seats_over (k := 0) trivial .nil)
  have hmended (node : ErrorNode) :
      (Node.expression (.error node)).Everywhere (Node.Seated A) :=
    Law.seats_over (k := 0) trivial (herror node)
  { makes := Law.seats_over
    stand := fun _ h => h
    exported := fun like h => ⟨hA.exported like, h⟩
    error := fun _ node => Law.seats_over (k := 0) trivial (herror node)
    mended := fun _ node => ⟨hA.error node, hmended node⟩
    name := fun _ id => ⟨hA.name id, Law.seats_over (k := 0) trivial
      (.one (Law.seats_over (k := 0) trivial .nil))⟩
    plain := fun h => ⟨hA.plain h.1, h.2⟩
    assigned := fun hctx hs hlast h => ⟨hA.assigned hctx hs hlast h.1,
      assignmentTarget_of (P := fun e => (Node.expression e).Everywhere _)
        h.2 hmended⟩
    deleted := fun hctx hs hlast h => ⟨hA.deleted hctx hs hlast h.1,
      deleteTarget_of (P := fun e => (Node.expression e).Everywhere _)
        h.2 hmended⟩
    sits_succ := id
    stands_succ := id
    block := id
    statement := fun _ _ _ _ _ h => h
    folded := fun hctx hs hst hfold hlast h =>
      ⟨hA.folded _ hctx hs hst hfold hlast, h⟩
    whole := fun hmin _ _ _ _ hctx hs hst hfold hlast hnone h =>
      ⟨hA.whole _ hmin hctx hs hst hfold hlast hnone, h⟩ }

/-- **In every tree the seats are taken** by what seats may have. -/
theorem parseWith_seated (options : Options) (table : OperatorTable)
    (source : List Char)
    (hA : Expression.Settles (.ofSource source options table)
      (runScript source options table).2 A) :
    (Node.program (parseWith options table source).program).Everywhere
      (Node.Seated A) :=
  Node.everywhere_program trivial
    (runScript_lawful options table source hA.holds)

end ScriptTree
