import ScriptTree.Proofs.Law.Logic
import ScriptTree.Proofs.Parse.Expression
import ScriptTree.Proofs.Seat.Basic

/-!
# Laws for the nodes of a tree

What is known of the nodes a parse makes is known by the levels of the
grammar that makes them. A **law** says what an expression is that takes a
seat (`Law.sits`), what any other node is that stands below one
(`Law.stands`), and what a node is when a production has made it
(`Law.made`), each over a grammar of so many levels.

A law **holds** in a run if a node with its seats taken and its other parts
standing is made as it should be, and if what has been made may take its
place: at the level that made it, or at the one above (`Law.Holds`). Then
whatever productions make is made by the law, and so is the script
(`runScript_lawful`).

The productions are gone through once for all laws. There is one for what
takes the seats of a tree (`Law.seats`), one for the statements in it
(`Law.statements`), and one for its depth (`Law.levels`).
-/

namespace ScriptTree

open Node State

variable {root ctx : Context} {s last : State} {k : Nat}

/-- **The seat before a token**: a call or an access begins with it, or it
may be an operator. -/
def Seat.before (token : Token) : Seat :=
  if Parse.opensAccess token then .accessed else .operand

namespace Node

/-- Whether a node is an expression. -/
def isExpression : Node → Bool
  | expression _ => true
  | _ => false

/-- Whether a level may be entered for a node. -/
def isLevel : Node → Bool
  | statement _ | block _ | expression _ => true
  | _ => false

end Node

/-- **A law for the nodes of trees**, over grammars of so many levels. -/
structure Law where
  /-- An expression that takes a seat is like this. -/
  sits : Nat → Seat → Expression → Prop
  /-- Any other node that stands below one is like this. -/
  stands : Nat → Node → Prop
  /-- A node that has been made is like this. -/
  made : Nat → Node → Prop

variable {L : Law}

/-! ## Nodes side by side -/

/-- **Nodes that stand side by side**, the expressions among them aside. -/
def Law.Stand (L : Law) (k : Nat) (ns : List Node) : Prop :=
  ∀ n ∈ ns, n.isExpression = false → L.stands k n

namespace Law.Stand

variable {α : Type} {n : Node} {ns ms : List Node} {xs : List α}

theorem nil : L.Stand k [] := fun _ h => nomatch h

theorem cons (hn : L.stands k n) (h : L.Stand k ns) : L.Stand k (n :: ns) :=
  List.forall_mem_cons.2 ⟨fun _ => hn, h⟩

theorem one (hn : L.stands k n) : L.Stand k [n] := .cons hn .nil

/-- Expressions have their seats. -/
theorem expression {e : Expression} (h : L.Stand k ns) :
    L.Stand k (.expression e :: ns) :=
  List.forall_mem_cons.2 ⟨nofun, h⟩

theorem expressions (es : List Expression) :
    L.Stand k (es.map .expression) :=
  List.forall_mem_map.2 fun _ _ => nofun

theorem append (h : L.Stand k ns) (h' : L.Stand k ms) :
    L.Stand k (ns ++ ms) :=
  List.forall_mem_append.2 ⟨h, h'⟩

theorem map {mk : α → Node} (h : ∀ x ∈ xs, L.stands k (mk x)) :
    L.Stand k (xs.map mk) :=
  List.forall_mem_map.2 fun x hx _ => h x hx

/-- A node that may be missing. -/
theorem optional {mk : α → Node} {x? : Option α}
    (h : ∀ x ∈ x?, L.stands k (mk x)) : L.Stand k (x?.toList.map mk) :=
  .map fun x hx => h x (Option.mem_toList.1 hx)

theorem flatMap {parts : α → List Node}
    (h : ∀ x ∈ xs, L.Stand k (parts x)) : L.Stand k (xs.flatMap parts) := by
  intro n hn
  obtain ⟨x, hx, hn⟩ := List.mem_flatMap.1 hn
  exact h x hx n hn

end Law.Stand

/-- **The nodes right below a node** are those in its seats and those that
stand there. -/
theorem Law.forall_child {P : Node → Prop} {n : Node}
    (seats : n.Seated (L.sits k)) (below : L.Stand k n.children)
    (hsits : ∀ seat e, L.sits k seat e → P (.expression e))
    (hstands : ∀ c, L.stands k c → P c) : ∀ c ∈ n.children, P c := by
  intro c hc
  cases c with
  | expression e => exact seats.forall_child hsits hc
  | _ => exact hstands _ (below _ hc rfl)

/-! ## Targets -/

namespace Parse

variable {e : Expression} {P : Expression → Prop} (he : P e)
  (herror : ∀ node, P (.error node))

include he herror

/-- **What is left of a first operand** is the operand, or an error node. -/
theorem assignmentTarget_of : P (assignmentTarget e ctx s).1 := by
  unfold assignmentTarget
  split
  · exact he
  · exact herror _

/-- So is what is left of an operand that is deleted. -/
theorem deleteTarget_of : P (deleteTarget e ctx s).1 := by
  unfold deleteTarget
  split
  · exact he
  · exact herror _

end Parse

/-! ## Laws that hold -/

/-- **A law that holds** in a run with a given last state. -/
structure Law.Holds (root : Context) (last : State) (L : Law) : Prop where
  /-- A node is made of those in its seats and those that stand below. -/
  makes {k : Nat} {n : Node} (seats : n.Seated (L.sits k))
    (below : L.Stand k n.children) : L.made k n
  /-- What is no level may stand where it was made. -/
  stand {k : Nat} {n : Node} (isLevel : n.isLevel = false)
    (made : L.made k n) : L.stands k n
  /-- A function or a class may be exported where it was made. -/
  exported {k : Nat} {e : Expression} (like : e.isDeclarationLike = true)
    (made : L.made k (.expression e)) : L.sits k .exported e
  /-- Error nodes stand for statements. -/
  error (k : Nat) (node : ErrorNode) : L.stands k (.statement (.error node))
  /-- A level up they take the seat of an expression. -/
  mended (k : Nat) (node : ErrorNode) : L.sits (k + 1) .plain (.error node)
  /-- So do names. -/
  name (k : Nat) (id : Identifier) : L.sits (k + 1) .plain (.identifier id)
  /-- What may sit behind an operator may sit anywhere. -/
  plain {k : Nat} {e : Expression} (sits : L.sits k .behind e) :
    L.sits k .plain e
  /-- What is left of a first operand is assigned to. -/
  assigned {k : Nat} {ctx : Context} {s : State} {e : Expression}
    (hctx : root.Within ctx) (hs : s.Reached root)
    (hlast : Acts root (Parse.assignmentTarget e ctx s).2 last)
    (sits : L.sits k .operand e) :
    L.sits k .assigned (Parse.assignmentTarget e ctx s).1
  /-- What is left of an operand behind an operator is deleted. -/
  deleted {k : Nat} {ctx : Context} {s : State} {e : Expression}
    (hctx : root.Within ctx) (hs : s.Reached root)
    (hlast : Acts root (Parse.deleteTarget e ctx s).2 last)
    (sits : L.sits k .behind e) :
    L.sits k .deleted (Parse.deleteTarget e ctx s).1
  /-- What sits does so a level up. -/
  sits_succ {k : Nat} {e : Expression} (sits : L.sits k .plain e) :
    L.sits (k + 1) .plain e
  /-- What stands does so a level up. -/
  stands_succ {k : Nat} {n : Node} (stands : L.stands k n) :
    L.stands (k + 1) n
  /-- A block stands a level up. -/
  block {k : Nat} {b : Block} (made : L.made k (.block b)) :
    L.stands (k + 1) (.block b)
  /-- A statement that is read does. -/
  statement {k : Nat} {ctx : Context} {s t : State} {x : Statement}
    (hctx : root.Within ctx) (hs : s.Reached root) (hst : Acts root s t)
    (run : Parse.statementFrom (.levels k) ctx s = (.ok x, t))
    (hlast : Acts root t last) (made : L.made k (.statement x)) :
    L.stands (k + 1) (.statement x)
  /-- What has been folded takes the seat before the next token. -/
  folded {k : Nat} {min : Precedence} {ctx : Context} {s t : State}
    {e : Expression} (hctx : root.Within ctx) (hs : s.Reached root)
    (hst : Acts root s t)
    (hfold : Folded (.levels k) min ctx s e t)
    (hlast : Acts root t last) (made : L.made k (.expression e)) :
    L.sits k (.before t.current) e
  /-- What the fold ends with may sit behind an operator a level up. -/
  whole {k : Nat} {min : Precedence} (hmin : root.table.Asks min)
    {ctx : Context} {s t : State} {e : Expression} (hctx : root.Within ctx)
    (hs : s.Reached root) (hst : Acts root s t)
    (hfold : Folded (.levels k) min ctx s e t)
    (hlast : Acts root t last)
    (hnone : byteLength root.source < root.turns →
      t.operator? ctx min = none)
    (made : L.made k (.expression e)) : L.sits (k + 1) .behind e

namespace Law.Holds

variable (hL : L.Holds root last)

include hL

/-- Names stand anywhere. -/
theorem identifier (id : Identifier) : L.stands k (.identifier id) :=
  hL.stand rfl (hL.makes trivial .nil)

/-- So do literals. -/
theorem literal (l : Literal) : L.stands k (.literal l) :=
  hL.stand rfl (hL.makes trivial .nil)

/-- So does text that could not be read. -/
theorem errorNode (node : ErrorNode) : L.Stand k [.error node] :=
  .one (hL.stand rfl (hL.makes trivial .nil))

theorem identifiers (ids : List Identifier) :
    L.Stand k (ids.map .identifier) :=
  .map fun _ _ => hL.identifier _

/-- A declaration stands by its bindings. -/
theorem declaration {d : VariableDeclaration} (seats : d.Seated (L.sits k))
    (below : L.Stand k (d.declarators.flatMap Declarator.parts)) :
    L.stands k (.declaration d) :=
  hL.stand rfl (hL.makes seats below)

end Law.Holds

end ScriptTree
