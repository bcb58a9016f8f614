import ScriptTree.Proofs.Dump.Shown
import ScriptTree.Proofs.Dump.Text
import ScriptTree.Proofs.Seat.Basic

/-!
# What a dump tells of the leaves of a tree

A leaf that is written as it is can be read back if it is a bare text or has
delimiters (`Literal.Legible`). The other literals are written by what they
stand for, and how they were spelled is known from that. Quoted text is
never in doubt.

`Node.Readable` is the statement about a whole tree: its leaves are legible,
and its parts are what the grammar has there (`Node.Seated`).
-/

namespace ScriptTree

/-- **A name that is written as it is**: nothing in it has a meaning in a
term. -/
def Identifier.Legible (id : Identifier) : Prop :=
  ∀ c ∈ id.name.toList, isBare c = true

/-- **A literal that can be read back.** Numbers, strings and templates are
written as they are; of the others the term says what they stand for, and
they are spelled as that must be. -/
def Literal.Legible (l : Literal) : Prop :=
  match l.kind with
  | .number => ∀ c ∈ l.raw.toList, isBare c = true
  | .string => Delimited .string l.raw.toList
  | .template => Delimited .template l.raw.toList
  | .regex pattern flags => l.raw = "/" ++ pattern ++ "/" ++ flags
  | .boolean true => l.raw = "true"
  | .boolean false => l.raw = "false"
  | .null => l.raw = "null"
  | .undefined => l.raw = "undefined"

namespace Node

/-- **A node that can be read back**: what is in its seats does not
matter. -/
def Legible (n : Node) : Prop :=
  n.Seated (fun _ _ => True) ∧
    match n with
    | identifier id => id.Legible
    | literal l => l.Legible
    | _ => True

/-- **A tree that can be read back.** -/
abbrev Readable (n : Node) : Prop := n.Everywhere Legible

/-- Where the tree of a node can be read back, so can the trees below. -/
theorem Readable.below {n : Node} (h : n.Readable) :
    ∀ c ∈ n.children, c.Readable :=
  fun c hc m hm => h m (mem_all_iff.2 (.inr ⟨c, hc, hm⟩))

theorem Readable.seated {n : Node} (h : n.Readable) :
    n.Seated (fun _ _ => True) :=
  (h n n.mem_all_self).1

theorem Readable.identifier {id : Identifier}
    (h : (Node.identifier id).Readable) : id.Legible :=
  (h _ (mem_all_self _)).2

theorem Readable.literal {l : Literal} (h : (Node.literal l).Readable) :
    l.Legible :=
  (h _ (mem_all_self _)).2

end Node

/-! ## Leaves as atoms -/

/-- A bare text is an atom. -/
theorem Sexp.Legible.bare {text : String}
    (h : ∀ c ∈ text.toList, isBare c = true) : (Sexp.atom text).Legible :=
  .atom (.bare h)

/-- A mark is an atom. -/
theorem Sexp.Legible.mark {text : String}
    (h : text.toList.all isBare = true) : (Sexp.atom text).Legible :=
  .bare (List.all_eq_true.1 h)

/-- Quoted text is an atom. -/
theorem Sexp.Legible.quote (text : String) :
    (Sexp.atom (quote text)).Legible :=
  .atom (.string (quote_delimited text))

theorem Identifier.Legible.atom {id : Identifier} (h : id.Legible) :
    id.atom.Legible :=
  .bare h

theorem Identifier.Legible.term {id : Identifier} (h : id.Legible) :
    id.term.Legible :=
  .node (by decide) (List.forall_mem_singleton.2 h.atom)

theorem ErrorNode.term_legible (e : ErrorNode) : e.term.Legible :=
  .node (by decide) (List.forall_mem_singleton.2 (.quote e.text))

theorem Literal.Legible.term {l : Literal} (h : l.Legible) :
    l.term.Legible := by
  obtain ⟨kind, raw, span⟩ := l
  cases kind with
  | number => exact .node (by decide) (List.forall_mem_singleton.2 (.bare h))
  | string =>
    exact .node (by decide) (List.forall_mem_singleton.2 (.atom (.string h)))
  | template =>
    exact .node (by decide)
      (List.forall_mem_singleton.2 (.atom (.template h)))
  | regex pattern flags =>
    refine .node (by decide) (List.forall_mem_cons.2 ⟨.quote pattern, ?_⟩)
    exact List.forall_mem_singleton.2 (.quote flags)
  | boolean value =>
    cases value <;>
    exact .node (by decide) (List.forall_mem_singleton.2 (.mark (by decide)))
  | null | undefined => exact .node (by decide) nofun

/-! ## Leaves from their terms -/

theorem Identifier.eq_of_atom {id id' : Identifier}
    (h : id.atom = id'.atom) : id.move nowhere = id'.move nowhere := by
  have hname : id.name = id'.name := Sexp.atom.inj h
  unfold Identifier.move
  rw [hname]
  rfl

theorem Identifier.eq_of_term {id id' : Identifier}
    (h : id.term = id'.term) : id.move nowhere = id'.move nowhere :=
  Identifier.eq_of_atom (List.cons.inj (Sexp.node.inj h).2).1

theorem ErrorNode.eq_of_term {e e' : ErrorNode} (h : e.term = e'.term) :
    e.move nowhere = e'.move nowhere := by
  have htext : e.text = e'.text :=
    quote_injective (Sexp.atom.inj (List.cons.inj (Sexp.node.inj h).2).1)
  unfold ErrorNode.move
  rw [htext]
  rfl

/-- **A literal is told by its term.** -/
theorem Literal.eq_of_term {l l' : Literal} (hl : l.Legible)
    (hl' : l'.Legible) (h : l.term = l'.term) :
    l.move nowhere = l'.move nowhere := by
  obtain ⟨kind, raw, span⟩ := l
  obtain ⟨kind', raw', span'⟩ := l'
  suffices hsame : kind = kind' ∧ raw = raw' by
    rw [hsame.1, hsame.2]
    rfl
  unfold Literal.Legible at hl hl'
  unfold Literal.term at h
  split at h <;> split at h <;> simp_all
  rw [quote_injective h.1, quote_injective h.2]
  exact ⟨⟨rfl, rfl⟩, rfl⟩

end ScriptTree
