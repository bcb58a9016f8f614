import ScriptTree.Proofs.Law.Statement
import ScriptTree.Proofs.Origin.Logic

/-!
# Where the statements of a tree come from

A statement of a tree is an error node, or it has been read as a statement
at some level of the grammar: it is an answer of `Parse.statementFrom`. So
what holds of all those answers holds of the statements of the tree
(`parseWith_stated`).
-/

namespace ScriptTree

open Node Parse

variable {root : Context} {last : State} {Q : Statement → Prop}

/-- **A context with a given operator table.** -/
def Context.Uses (table : OperatorTable) (ctx : Context) : Prop :=
  ctx.table = table

/-- **A property of statements** that error nodes have, and all that are
read as statements at some level of the grammar. -/
structure Statement.Arises (table : OperatorTable)
    (Q : Statement → Prop) : Prop where
  /-- Error nodes have it. -/
  error (e : ErrorNode) : Q (.error e)
  /-- Statements that are read have it. -/
  run (n : Nat) :
    Gives (Context.Uses table) (statementFrom (Grammar.levels n)) Q

/-- **The law of the statements**, at every level the same: those of a tree
have a property, and those right below a node that has been made. -/
def Law.statements (Q : Statement → Prop) : Law where
  sits _ _ e := (Node.expression e).Everywhere (Stated Q)
  stands _ n := n.Everywhere (Stated Q)
  made _ n := ∀ c ∈ n.children, c.Everywhere (Stated Q)

/-- **It holds** of what arises where statements are read. -/
theorem Statement.Arises.holds (hQ : Statement.Arises root.table Q) :
    (Law.statements Q).Holds root last :=
  have hleaf {n : Node} (hn : n.Stated Q) (hchildren : n.children = []) :
      n.Everywhere (Stated Q) :=
    .intro hn (hchildren ▸ List.forall_mem_nil _)
  have hmended (node : ErrorNode) :
      (Node.expression (.error node)).Everywhere (Stated Q) :=
    .intro trivial (List.forall_mem_singleton.2 (hleaf trivial rfl))
  { makes := fun seats below =>
      Law.forall_child seats below (fun _ _ h => h) fun _ h => h
    stand := fun {_ n} isLevel h => .intro (by cases n <;> trivial) h
    exported := fun _ h => .intro trivial h
    error := fun _ node => .intro (hQ.error node)
      (List.forall_mem_singleton.2 (hleaf trivial rfl))
    mended := fun _ => hmended
    name := fun _ _ => .intro trivial
      (List.forall_mem_singleton.2 (hleaf trivial rfl))
    plain := id
    assigned := fun _ _ _ h => assignmentTarget_of
      (P := fun e => (Node.expression e).Everywhere _) h hmended
    deleted := fun _ _ _ h => deleteTarget_of
      (P := fun e => (Node.expression e).Everywhere _) h hmended
    sits_succ := id
    stands_succ := id
    block := .intro trivial
    statement := fun {k ctx s t x} hctx _ _ hrun _ h =>
      .intro (hQ.run k ctx s x t hctx.table_eq hrun) h
    folded := fun _ _ _ _ _ h => .intro trivial h
    whole := fun _ _ _ _ _ _ _ _ _ _ _ h => .intro trivial h }

/-- **All statements of all trees** have a property that error nodes have,
and all that are read as statements at some level of the grammar. -/
theorem parseWith_stated {table : OperatorTable}
    (hQ : Statement.Arises table Q) (options : Options)
    (source : List Char) :
    (Node.program (parseWith options table source).program).Everywhere
      (Node.Stated Q) :=
  Node.everywhere_program trivial
    (runScript_lawful options table source hQ.holds)

end ScriptTree
