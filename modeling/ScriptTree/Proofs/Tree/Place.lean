import ScriptTree.Proofs.Text.Cut
import ScriptTree.Proofs.Text.Row
import ScriptTree.Token.Lexeme
import ScriptTree.Tree.Node

/-!
# Nodes in their places

What a tree says about the text it was read from: every node takes up a
piece of the text, the nodes right below it stand in it one behind the
other, and a name, a literal or an error node has the very text of its
place. `Node.Placed` is the statement about one node; it mentions the
nodes right below it and none further down.

The bindings of a declaration and the members of an object have spans of
their own although no walk stops at them. They are the **items** of their
node, and stand in it as nodes do.

A whole tree is in its place if each of its nodes is, and `Node.Fills`
says so together with the place. It comes with a statement about the
expressions of the tree, which is a parameter: how an expression came to
be is nothing its place could tell.
-/

namespace ScriptTree

/-! ## Regular expressions -/

/-- **A text that is split at its last slash**, the one at its front aside:
into a pattern in front of it and flags behind it. Without such a slash all
of it is the pattern. -/
inductive SplitsAtSlash : (text pattern flags : List Char) → Prop where
  | slash {pattern flags : List Char} (hflags : '/' ∉ flags) :
      SplitsAtSlash ('/' :: (pattern ++ '/' :: flags)) pattern flags
  | noSlash {pattern : List Char} (hpattern : '/' ∉ pattern) :
      SplitsAtSlash ('/' :: pattern) pattern []

/-- **A regular expression as it is scanned**: the literal is what is found
behind a slash of the text, split at its last slash. -/
def Literal.Scanned (source : List Char) (l : Literal) : Prop :=
  ∀ pattern flags, l.kind = .regex pattern flags →
    ∃ before cs, source = before ++ '/' :: cs
      ∧ l.span.start = byteLength before
      ∧ l.raw = String.ofList ('/' :: cs.take (Lexeme.regex cs).extent)
      ∧ SplitsAtSlash l.raw.toList pattern.toList flags.toList

/-! ## One node -/

/-- **Whether the expression is an operation whose operands stand at both
of its ends.** -/
def Expression.isOperation : Expression → Bool
  | binary .. | sequence .. | assignment .. | compoundAssignment ..
  | conditional .. => true
  | _ => false

namespace Node

/-- The text a node repeats, if it repeats any. -/
def text? : Node → Option String
  | identifier id => some id.name
  | literal l => some l.raw
  | error e => some e.text
  | _ => none

/-- **The items of a node**: parts with a span of their own that are no
nodes, each with the nodes in it. -/
def items : Node → List (Span × List Node)
  | declaration d => d.declarators.map (fun x => (x.span, x.parts))
  | expression (.object members _) =>
    members.map (fun x => (x.span, x.parts))
  | _ => []

/-- Whether the node is an operation with an operand at both ends. -/
def isOperation : Node → Bool
  | expression e => e.isOperation
  | _ => false

/-- A node takes up the place its span says. -/
def Spans (n : Node) (b e : Nat) : Prop := n.span = ⟨b, e⟩

/-- **An item in its place**: it holds text, and its nodes stand in it one
behind the other. -/
def ItemSpans (source : List Char) (i : Span × List Node) (b e : Nat) :
    Prop :=
  i.1 = ⟨b, e⟩ ∧ i.1.Fits source ∧ Row Spans b e i.2

/-- **A node in its place.** -/
structure Placed (source : List Char) (n : Node) : Prop where
  /-- It holds text. -/
  fits : n.span.Fits source
  /-- The nodes right below it stand in it one behind the other. -/
  children : Row Spans n.span.start n.span.stop n.children
  /-- So do its items. -/
  items : Row (ItemSpans source) n.span.start n.span.stop n.items
  /-- The text it repeats is the text of its place. -/
  text_eq : ∀ text, n.text? = some text →
    text = String.ofList (n.span.slice source)
  /-- A regular expression is what is found behind a slash there. -/
  scanned : ∀ l, n = .literal l → l.Scanned source
  /-- An operation goes from its first operand to its last. -/
  span_eq : n.isOperation = true →
    ∃ first last, n.children.head? = some first
      ∧ n.children.getLast? = some last
      ∧ n.span = ⟨first.span.start, last.span.stop⟩

/-! ## All nodes of a tree -/

theorem mem_all_iff {m n : Node} :
    m ∈ n.all ↔ m = n ∨ ∃ c ∈ n.children, m ∈ c.all := by
  unfold all
  rw [walk_eq, if_pos rfl, List.mem_cons, List.mem_flatMap]

/-- The whole tree below a node belongs to it. -/
theorem mem_all_self (n : Node) : n ∈ n.all := mem_all_iff.2 (.inl rfl)

/-- **What holds everywhere in a tree**: at each of its nodes. -/
def Everywhere (P : Node → Prop) (n : Node) : Prop := ∀ m ∈ n.all, P m

/-- What a statement about expressions says of a node. -/
def Traced (P : Expression → Prop) : Node → Prop
  | expression e => P e
  | _ => True

/-- **A tree in its place**, from the offset `b` to the offset `e`: all
its nodes are in theirs, and `P` holds of all its expressions. -/
def Fills (source : List Char) (P : Expression → Prop) (n : Node)
    (b e : Nat) : Prop :=
  n.Spans b e ∧ n.Everywhere (fun m => m.Placed source ∧ m.Traced P)

/-- **An item in its place** with all its nodes. -/
def ItemFills (source : List Char) (P : Expression → Prop)
    (i : Span × List Node) (b e : Nat) : Prop :=
  i.1 = ⟨b, e⟩ ∧ i.1.Fits source ∧ Row (Fills source P) b e i.2

variable {source : List Char} {P : Expression → Prop} {n : Node}
  {i : Span × List Node} {b e : Nat}

namespace Fills

theorem spans (h : n.Fills source P b e) : n.Spans b e := h.1

theorem placed (h : n.Fills source P b e) : n.Placed source :=
  (h.2 n n.mem_all_self).1

theorem fits (h : n.Fills source P b e) :
    Span.Fits ⟨b, e⟩ source := by
  rw [← h.spans]
  exact h.placed.fits

/-- **What is right below** a tree in its place are trees in theirs. -/
theorem children (h : n.Fills source P b e) :
    Row (Fills source P) b e n.children := by
  have hrow := h.placed.children
  rw [show n.span = ⟨b, e⟩ from h.spans] at hrow
  refine hrow.imp (fun c hc b e hspans => ⟨hspans, fun m hm => ?_⟩)
  exact h.2 m (mem_all_iff.2 (.inr ⟨c, hc, hm⟩))

end Fills

theorem ItemFills.itemSpans (h : ItemFills source P i b e) :
    ItemSpans source i b e :=
  ⟨h.1, h.2.1, h.2.2.imp (fun _ _ _ _ hc => hc.1)⟩

/-- **Building a tree**: a node is in its place with all below it if the
nodes right below it are. -/
theorem Fills.intro (hspan : n.Spans b e)
    (hfits : Span.Fits ⟨b, e⟩ source)
    (hchildren : Row (Fills source P) b e n.children)
    (hitems : Row (ItemFills source P) b e n.items)
    (htext : ∀ text, n.text? = some text →
      text = String.ofList (Span.slice ⟨b, e⟩ source))
    (hscanned : ∀ l, n = .literal l → l.Scanned source)
    (hop : n.isOperation = true →
      ∃ first last, n.children.head? = some first
        ∧ n.children.getLast? = some last
        ∧ n.span = ⟨first.span.start, last.span.stop⟩)
    (htraced : n.Traced P) : n.Fills source P b e := by
  refine ⟨hspan, fun m hm => ?_⟩
  rcases mem_all_iff.1 hm with rfl | ⟨c, hc, hm⟩
  · have hspan' : m.span = ⟨b, e⟩ := hspan
    refine ⟨⟨?_, ?_, ?_, ?_, hscanned, hop⟩, htraced⟩
    · rw [hspan']
      exact hfits
    · rw [hspan']
      exact hchildren.imp (fun _ _ _ _ hc => hc.1)
    · rw [hspan']
      exact hitems.imp (fun _ _ _ _ hi => hi.itemSpans)
    · rw [hspan']
      exact htext
  · obtain ⟨_, _, _, _, _, hfills⟩ := hchildren.exists_of_mem hc
    exact hfills.2 m hm

/-- Whether nothing but its children has to be looked at to know that a
node is in its place. -/
def isPlain (n : Node) : Bool :=
  n.text?.isNone && n.items.isEmpty && !n.isOperation

/-- Building a tree whose root is a plain node. -/
theorem Fills.of_isPlain (hplain : n.isPlain = true)
    (hspan : n.Spans b e) (hfits : Span.Fits ⟨b, e⟩ source)
    (hchildren : Row (Fills source P) b e n.children)
    (htraced : n.Traced P) : n.Fills source P b e := by
  simp only [isPlain, Bool.and_eq_true, Option.isNone_iff_eq_none,
    List.isEmpty_iff, Bool.not_eq_true'] at hplain
  obtain ⟨⟨htext, hitems⟩, hop⟩ := hplain
  refine .intro hspan hfits hchildren ?_ ?_ ?_ ?_ htraced
  · rw [hitems]
    exact .nil
  · rw [htext]
    exact fun _ h => nomatch h
  · rintro l rfl
    exact nomatch htext
  · rw [hop]
    exact fun h => nomatch h

/-- Building a tree whose root has one child, with the same span. -/
theorem Fills.wrap {m : Node} (hm : m.Fills source P b e)
    (hplain : n.isPlain = true) (hspan : n.span = m.span)
    (hchildren : n.children = [m]) (htraced : n.Traced P) :
    n.Fills source P b e := by
  refine .of_isPlain hplain (hspan.trans hm.spans) hm.fits ?_ htraced
  rw [hchildren]
  exact .single hm (Nat.le_refl b) hm.fits.start_lt_stop (Nat.le_refl e)

/-- Building a leaf that repeats its text. -/
theorem Fills.of_text {text : String} (htext : n.text? = some text)
    (hspan : n.Spans b e) (hfits : Span.Fits ⟨b, e⟩ source)
    (heq : text = String.ofList (Span.slice ⟨b, e⟩ source))
    (hscanned : ∀ l, n = .literal l → l.Scanned source) :
    n.Fills source P b e := by
  cases n
  case identifier | literal | error =>
    refine .intro hspan hfits .nil .nil ?_ hscanned (fun h => nomatch h)
      trivial
    intro text' htext'
    rw [htext'] at htext
    rw [Option.some.inj htext]
    exact heq
  all_goals exact nomatch htext

/-! ## Trees without errors in them -/

/-- Whether the node is text that could not be read. -/
def isError : Node → Bool
  | error _ => true
  | _ => false

/-- **A tree without errors in it.** -/
def Flawless (n : Node) : Prop := n.Everywhere (fun m => m.isError = false)

/-- A tree is flawless if its root is no error and the trees right below
it are flawless. -/
theorem flawless_iff {n : Node} :
    n.Flawless ↔ n.isError = false ∧ ∀ c ∈ n.children, c.Flawless := by
  constructor
  · intro h
    refine ⟨h n n.mem_all_self, fun c hc m hm => ?_⟩
    exact h m (mem_all_iff.2 (.inr ⟨c, hc, hm⟩))
  · rintro ⟨hn, hchildren⟩ m hm
    rcases mem_all_iff.1 hm with rfl | ⟨c, hc, hm⟩
    · exact hn
    · exact hchildren c hc m hm

end Node

end ScriptTree
