import ScriptTree.Parse.Action
import ScriptTree.Proofs.Tree.Place
import ScriptTree.Tree.Node

/-!
# What becomes of a token

The tokens a production reads are not all in the tree it makes. Marks and
reserved words have done their work when they are read, and so have a few
names with a meaning in some places only (`softWords`). A name and a
literal are to be found in the tree, at its leaves, each once.

`Spent` says so of some tokens and some leaves: each token is one leaf, or
need not be any, and the leaves are in the order of the tokens. No token
is spent on an error: that takes the tokens that were passed over out of
the account.
-/

namespace ScriptTree

/-! ## Leaves -/

/-- **A leaf of a tree**: a node with nothing below it that stands for some
text. -/
inductive Leaf where
  /-- A name. -/
  | name (id : Identifier)
  /-- A literal. -/
  | literal (l : Literal)
  /-- Text that could not be read. -/
  | error (e : ErrorNode)

namespace Leaf

/-- Whether the leaf is text that could not be read. -/
def isError : Leaf → Bool
  | error _ => true
  | _ => false

/-- The name a leaf is. -/
def name? : Leaf → Option Identifier
  | name id => some id
  | _ => none

/-- The literal a leaf is. -/
def literal? : Leaf → Option Literal
  | literal l => some l
  | _ => none

end Leaf

namespace Node

/-- The leaf a node is. -/
def leaf? : Node → Option Leaf
  | identifier id => some (.name id)
  | literal l => some (.literal l)
  | error e => some (.error e)
  | _ => none

/-- **The leaves of a tree**, in the order of the text. -/
def leaves (n : Node) : List Leaf := n.all.filterMap leaf?

/-- The leaves of a tree are those of the trees right below its root. -/
theorem leaves_eq (n : Node) :
    n.leaves = n.leaf?.toList ++ n.children.flatMap leaves := by
  have hall : n.all = n :: n.children.flatMap all := by
    unfold all
    rw [walk_eq, if_pos rfl]
  unfold leaves
  rw [hall, List.filterMap_cons, List.filterMap_flatMap]
  cases n.leaf? <;> rfl

theorem leaves_of_leaf?_eq_none {n : Node} (h : n.leaf? = none) :
    n.leaves = n.children.flatMap leaves := by
  rw [leaves_eq, h]
  rfl

/-- **A tree is flawless** if no leaf of it is an error. -/
theorem flawless_of_leaves {n : Node}
    (h : ∀ l ∈ n.leaves, l.isError = false) : n.Flawless := by
  intro m hm
  cases hleaf : m.leaf? with
  | none => cases m <;> first | rfl | exact nomatch hleaf
  | some l =>
    have hl := h l (List.mem_filterMap.2 ⟨m, hm, hleaf⟩)
    cases m <;> cases hleaf <;> first | rfl | exact nomatch hl

end Node

/-! ## Tokens -/

/-- **The names with a meaning in some places only.** -/
def softWords : List String :=
  ["async", "get", "set", "static", "of", "as", "from"]

/-- **A token that need not be in the tree**: a mark, a reserved word, or
a name that may have a meaning of its own. -/
def Token.IsSilent (t : Token) : Prop :=
  match t.kind with
  | .punctuator _ | .keyword _ => True
  | .identifier => t.text ∈ softWords
  | _ => False

/-- The kind of the tokens that are such literals, unless they are
reserved words. -/
def LiteralKind.tokenKind? : LiteralKind → Option TokenKind
  | number => some .number
  | string => some .string
  | template => some .template
  | regex _ _ => some .regex
  | boolean _ | null | undefined => none

/-- The reserved word that is such a literal. -/
def LiteralKind.word? : LiteralKind → Option Keyword
  | boolean true => some .kwTrue
  | boolean false => some .kwFalse
  | null => some .kwNull
  | undefined => some .kwUndefined
  | number | string | template | regex _ _ => none

theorem LiteralKind.tokenKind?_of_word? {kind : LiteralKind} {k : Keyword}
    (h : kind.word? = some k) : kind.tokenKind? = none := by
  cases kind <;> first | rfl | exact nomatch h

/-- **Whether a token can be such a literal.** -/
def LiteralKind.Suits (kind : LiteralKind) (t : Token) : Prop :=
  kind.tokenKind? = some t.kind
    ∨ ∃ k, kind.word? = some k ∧ t.kind = .keyword k

/-- **Tokens that are spent on leaves**: each of them is one leaf, or is
not in the tree. -/
inductive Spent : List Token → List Leaf → Prop where
  /-- There are none. -/
  | nil : Spent [] []
  /-- A token that is not in the tree. -/
  | silent {t : Token} {ts : List Token} {ls : List Leaf}
      (h : t.IsSilent) (behind : Spent ts ls) : Spent (t :: ts) ls
  /-- A token that is a name. -/
  | name {t : Token} {ts : List Token} {ls : List Leaf}
      (h : Parse.namesProperty t = true) (behind : Spent ts ls) :
      Spent (t :: ts) (.name (Parse.identifierOf t) :: ls)
  /-- A token that is a literal. -/
  | literal {t : Token} {ts : List Token} {ls : List Leaf}
      {kind : LiteralKind} (h : kind.Suits t) (behind : Spent ts ls) :
      Spent (t :: ts) (.literal ⟨kind, t.text, t.span⟩ :: ls)

namespace Spent

variable {ts ts' : List Token} {ls ls' : List Leaf}

theorem append (h : Spent ts ls) (h' : Spent ts' ls') :
    Spent (ts ++ ts') (ls ++ ls') := by
  induction h with
  | nil => exact h'
  | silent h _ ih => exact .silent h ih
  | name h _ ih => exact .name h ih
  | literal h _ ih => exact .literal h ih

/-- No token is spent on an error. -/
theorem isError_eq_false (h : Spent ts ls) :
    ∀ l ∈ ls, l.isError = false := by
  induction h with
  | nil => exact fun _ hl => nomatch hl
  | silent _ _ ih => exact ih
  | name _ _ ih | literal _ _ ih =>
    intro l hl
    rcases List.mem_cons.1 hl with rfl | hl
    · rfl
    · exact ih l hl

end Spent

end ScriptTree
