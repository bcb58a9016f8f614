import ScriptTree.Tree.Move
import ScriptTree.Proofs.Options.Tolerance
import ScriptTree.Proofs.Progress.Script
import ScriptTree.Proofs.Token.Stream

/-!
# A text mirrored in another one

Two texts may be alike in part: one may be a piece of the other, or the
two may differ in what stands between their tokens. A `Mirror` says of a
text how a part of it is found again in another text. While a parse of the
first reads that part, a parse of the second can follow it token by token,
and it does so as long as each state stands **inside** the part
(`Mirror.Inside`).

The part may be read to its end while the first text goes on. Then the
second parse has come to the end of its own text, and is **over**
(`Mirror.Over`): what is current in the first parse it cannot see. The
parses agree all the same if the first reads nothing more.

Whether it does is known only afterwards. So a mirror comes with a
statement about the states of the first parse, `Fits`, that is true of
those from which the parse goes on inside the part to the end of what it
reads there; and all that is said of the second parse is said where the
first ends in such a state.

Some trees cannot be read twice: what a token is may depend on more than
the part. The nodes that show this are **marked**, and of trees with
marked nodes in them nothing is claimed.
-/

namespace ScriptTree

/-! ## Parts of trees -/

/-- **What can be moved** to another place of a text. -/
class Movable (α : Type) where
  /-- The same with its spans changed. -/
  move : (Nat → Nat) → α → α

/-- **What is made of nodes.** -/
class HasNodes (α : Type) where
  /-- The nodes, in no particular order. -/
  nodes : α → List Node

/-- What no nodes are kept of, since they are of no interest. -/
class Plain (α : Type) [HasNodes α] : Prop where
  /-- There are none. -/
  nodes_eq (a : α) : HasNodes.nodes a = []

section Instances

variable {α β : Type}

instance : Movable Unit := ⟨fun _ a => a⟩
instance : Movable Bool := ⟨fun _ a => a⟩
instance : Movable MethodKind := ⟨fun _ a => a⟩
instance : Movable Identifier := ⟨Identifier.move⟩
instance : Movable Literal := ⟨Literal.move⟩
instance : Movable PropertyKey := ⟨PropertyKey.move⟩
instance : Movable ImportSpecifier := ⟨ImportSpecifier.move⟩
instance : Movable ImportClause := ⟨ImportClause.move⟩
instance : Movable ExportSpecifier := ⟨ExportSpecifier.move⟩
instance : Movable Expression := ⟨Expression.move⟩
instance : Movable ObjectMember := ⟨ObjectMember.move⟩
instance : Movable ArrowBody := ⟨ArrowBody.move⟩
instance : Movable Class := ⟨Class.move⟩
instance : Movable Method := ⟨Method.move⟩
instance : Movable Block := ⟨Block.move⟩
instance : Movable VariableDeclaration := ⟨VariableDeclaration.move⟩
instance : Movable Declarator := ⟨Declarator.move⟩
instance : Movable SwitchCase := ⟨SwitchCase.move⟩
instance : Movable ForInit := ⟨ForInit.move⟩
instance : Movable CatchClause := ⟨CatchClause.move⟩
instance : Movable Export := ⟨Export.move⟩
instance : Movable Statement := ⟨Statement.move⟩
instance [Movable α] : Movable (Option α) :=
  ⟨fun f => Option.map (Movable.move f)⟩
instance [Movable α] : Movable (List α) :=
  ⟨fun f => List.map (Movable.move f)⟩
instance [Movable α] [Movable β] : Movable (α × β) :=
  ⟨fun f => Prod.map (Movable.move f) (Movable.move f)⟩

/-- The header of a loop at another place. -/
def ForHeader.move (f : Nat → Nat) : ForHeader → ForHeader
  | counting init? test? update? =>
    counting (Movable.move f init?) (Movable.move f test?)
      (Movable.move f update?)
  | overKeys kind? left right =>
    overKeys kind? (left.move f) (right.move f)
  | overValues kind? left right =>
    overValues kind? (left.move f) (right.move f)

instance : Movable ForHeader := ⟨ForHeader.move⟩

instance : HasNodes Unit := ⟨fun _ => []⟩
instance : HasNodes Bool := ⟨fun _ => []⟩
instance : HasNodes MethodKind := ⟨fun _ => []⟩
instance : HasNodes Token := ⟨fun _ => []⟩
instance : HasNodes Identifier := ⟨fun _ => []⟩
instance : HasNodes ImportSpecifier := ⟨fun _ => []⟩
instance : HasNodes ImportClause := ⟨fun _ => []⟩
instance : HasNodes ExportSpecifier := ⟨fun _ => []⟩
instance : HasNodes (Option OperatorInfo) := ⟨fun _ => []⟩
instance : HasNodes Literal := ⟨fun l => [.literal l]⟩
instance : HasNodes PropertyKey := ⟨fun key => [key.part]⟩
instance : HasNodes Expression := ⟨fun e => [.expression e]⟩
instance : HasNodes ObjectMember := ⟨ObjectMember.parts⟩
instance : HasNodes ArrowBody := ⟨fun b => [b.part]⟩
instance : HasNodes Class := ⟨fun c => [.classDef c]⟩
instance : HasNodes Method := ⟨fun m => [.method m]⟩
instance : HasNodes Block := ⟨fun b => [.block b]⟩
instance : HasNodes VariableDeclaration :=
  ⟨fun d => d.declarators.flatMap Declarator.parts⟩
instance : HasNodes Declarator := ⟨Declarator.parts⟩
instance : HasNodes SwitchCase := ⟨SwitchCase.parts⟩
instance : HasNodes ForInit where
  nodes
    | .declaration d => d.declarators.flatMap Declarator.parts
    | .expression e => [.expression e]
instance : HasNodes ForHeader := ⟨ForHeader.parts⟩
instance : HasNodes CatchClause := ⟨CatchClause.parts⟩
instance : HasNodes Export := ⟨Export.parts⟩
instance : HasNodes Statement := ⟨fun s => [.statement s]⟩
instance [HasNodes α] : HasNodes (Option α) :=
  ⟨fun a? => a?.toList.flatMap HasNodes.nodes⟩
instance [HasNodes α] : HasNodes (List α) :=
  ⟨fun xs => xs.flatMap HasNodes.nodes⟩
instance [HasNodes α] [HasNodes β] : HasNodes (α × β) :=
  ⟨fun p => HasNodes.nodes p.1 ++ HasNodes.nodes p.2⟩

/-- The nodes of a list of things that are nodes themselves. -/
theorem nodes_list [HasNodes α] {mk : α → Node}
    (h : ∀ a : α, HasNodes.nodes a = [mk a]) (xs : List α) :
    HasNodes.nodes xs = xs.map mk := by
  rw [List.map_eq_flatMap]
  exact congrArg (xs.flatMap ·) (funext h)

/-- The same where there may be one. -/
theorem nodes_option [HasNodes α] {mk : α → Node}
    (h : ∀ a : α, HasNodes.nodes a = [mk a]) (a? : Option α) :
    HasNodes.nodes a? = a?.toList.map mk :=
  nodes_list h a?.toList

/-- What is a node has itself as its only one. -/
@[simp] theorem nodes_expression (e : Expression) :
    HasNodes.nodes e = [.expression e] := rfl

@[simp] theorem nodes_block (b : Block) :
    HasNodes.nodes b = [.block b] := rfl

@[simp] theorem nodes_statement (s : Statement) :
    HasNodes.nodes s = [.statement s] := rfl

/-- The nodes of a list are its elements. -/
@[simp] theorem nodes_expressions (es : List Expression) :
    HasNodes.nodes es = es.map .expression := nodes_list (fun _ => rfl) es

/-- What may be missing has one node or none. -/
@[simp] theorem nodes_expression? (e? : Option Expression) :
    HasNodes.nodes e? = e?.toList.map .expression :=
  nodes_option (fun _ => rfl) e?

@[simp] theorem nodes_methods (ms : List Method) :
    HasNodes.nodes ms = ms.map .method := nodes_list (fun _ => rfl) ms

@[simp] theorem nodes_statements (ss : List Statement) :
    HasNodes.nodes ss = ss.map .statement := nodes_list (fun _ => rfl) ss

@[simp] theorem nodes_statement? (s? : Option Statement) :
    HasNodes.nodes s? = s?.toList.map .statement :=
  nodes_option (fun _ => rfl) s?

@[simp] theorem nodes_block? (b? : Option Block) :
    HasNodes.nodes b? = b?.toList.map .block :=
  nodes_option (fun _ => rfl) b?

@[simp] theorem nodes_literal? (l? : Option Literal) :
    HasNodes.nodes l? = l?.toList.map .literal :=
  nodes_option (fun _ => rfl) l?

instance : Plain Unit := ⟨fun _ => rfl⟩
instance : Plain Bool := ⟨fun _ => rfl⟩
instance : Plain MethodKind := ⟨fun _ => rfl⟩
instance : Plain Token := ⟨fun _ => rfl⟩
instance : Plain Identifier := ⟨fun _ => rfl⟩
instance : Plain ImportSpecifier := ⟨fun _ => rfl⟩
instance : Plain ImportClause := ⟨fun _ => rfl⟩
instance : Plain ExportSpecifier := ⟨fun _ => rfl⟩

instance [HasNodes α] [Plain α] : Plain (Option α) where
  nodes_eq
    | none => rfl
    | some a => (List.append_nil _).trans (Plain.nodes_eq a)

instance [HasNodes α] [Plain α] : Plain (List α) where
  nodes_eq _ := List.flatMap_eq_nil_iff.2 (fun a _ => Plain.nodes_eq a)

end Instances

/-! ## Mirrors -/

/-- **A text and another one in which a part of it is found again.** -/
structure Mirror where
  /-- The text. -/
  text : List Char
  /-- The other text. -/
  other : List Char
  /-- How both are parsed. -/
  options : Options
  /-- The operators of both parses. -/
  table : OperatorTable
  /-- Where an offset of the part lies in the other text. -/
  place : Nat → Nat
  /-- Whether a parse of the text goes on inside the part. -/
  Fits : State → Prop
  /-- Whether it has come to the end of the part. -/
  Done : State → Prop
  /-- Whether two scanners stand at the same place of the part, behind a
  token of the text. -/
  Level : Token → Scanner → Scanner → Prop
  /-- Whether two scanners will find the same tokens up to the end of the
  part. -/
  Twin : Scanner → Scanner → Prop
  /-- Whether a tree with such a node in it cannot be read twice. -/
  Mark : Node → Prop

namespace Mirror

variable (M : Mirror)

/-- The context the parse of the text begins in. -/
def root : Context := .ofSource M.text M.options M.table

/-- A context of the one parse as a context of the other. -/
def reflect (ctx : Context) : Context :=
  { ctx with
    source := M.other
    turns := byteLength M.other + 1 }

/-- The context the parse of the other text begins in. -/
abbrev image : Context := M.reflect M.root

/-- A context of the parse is one of the other parse, with the other text in
it. -/
theorem within_image {ctx : Context} (h : M.root.Within ctx) :
    M.image.Within (M.reflect ctx) :=
  ⟨rfl, rfl, h.options_eq, h.table_eq⟩

/-- The same in the other text. -/
abbrev move {α : Type} [Movable α] : α → α := Movable.move M.place

/-- **A token of the part as it is found in the other text.** -/
def token (t : Token) : Token :=
  { t with
    span := t.span.move M.place
    position := positionAt M.other (M.place t.span.start) }

/-! ## Marked nodes -/

/-- Whether a tree has a marked node in it. -/
def MarkedNode (n : Node) : Prop := ∃ m ∈ n.all, M.Mark m

/-- **Whether something is made of trees with a marked node in one of
them.** -/
def Marked {α : Type} [HasNodes α] (a : α) : Prop :=
  ∃ n ∈ HasNodes.nodes a, M.MarkedNode n

section Marked

variable {M} {α β : Type} {n : Node}

/-- A mark below a node is a mark below all that contain it. -/
theorem markedNode_of_child {c : Node} (hc : c ∈ n.children)
    (h : M.MarkedNode c) : M.MarkedNode n := by
  obtain ⟨m, hm, hmark⟩ := h
  exact ⟨m, Node.mem_all_iff.2 (.inr ⟨c, hc, hm⟩), hmark⟩

/-- What has no nodes is not marked. -/
theorem not_marked [HasNodes α] [Plain α] (a : α) : ¬M.Marked a := by
  rintro ⟨n, hn, _⟩
  rw [Plain.nodes_eq] at hn
  exact absurd hn List.not_mem_nil

/-- What has a node with a mark is marked. -/
theorem marked_of_mark [HasNodes α] {a : α} (hn : n ∈ HasNodes.nodes a)
    (h : M.Mark n) : M.Marked a :=
  ⟨n, hn, n, Node.mem_all_self n, h⟩

/-- **A marked part makes a marked whole.** -/
theorem Marked.node [HasNodes α] {a : α} (h : M.Marked a)
    (hsub : ∀ c ∈ HasNodes.nodes a, c ∈ n.children) :
    M.MarkedNode n := by
  obtain ⟨m, hm, hmarked⟩ := h
  exact markedNode_of_child (hsub m hm) hmarked

/-- A mark stays where all nodes stay. -/
theorem Marked.sub [HasNodes α] [HasNodes β] {a : α} {b : β}
    (h : M.Marked a)
    (hsub : ∀ n ∈ HasNodes.nodes a, n ∈ HasNodes.nodes b) :
    M.Marked b := by
  obtain ⟨m, hm, hmarked⟩ := h
  exact ⟨m, hsub m hm, hmarked⟩

end Marked

/-! ## States side by side -/

/-- **A state of each parse before the same token**, whatever stands in
front of it. -/
structure Fresh (s s' : State) : Prop where
  /-- The parse of the text is between two steps. -/
  good : s.Good M.root
  /-- So is the other one. -/
  good' : s'.Good M.image
  /-- The same token is current. -/
  current_eq : s'.current = M.token s.current
  /-- Nothing is wrong with it. -/
  clear : s.current.error = none
  /-- The scanners stand at the same place. -/
  level : M.Level s.current s.scanner s'.scanner
  /-- So do the ends of what has been read. -/
  consumedTo_eq : s'.consumedTo = M.place s.consumedTo
  /-- Nothing is wrong with the other text so far. -/
  problems_eq : s'.problems = []

/-- **Two states at the same place inside the part.** -/
structure Inside (s s' : State) : Prop extends M.Fresh s s' where
  /-- A line break is where one was. -/
  newlineBefore_eq : s'.newlineBefore = s.newlineBefore

/-- **Two states at the end of the part**, which is the end of the other
text. -/
structure Over (s s' : State) : Prop where
  /-- The parse of the text is between two steps. -/
  good : s.Good M.root
  /-- So is the other one. -/
  good' : s'.Good M.image
  /-- The part has been read. -/
  done : M.Done s
  /-- Nothing is wrong with the token behind it. -/
  clear : s.current.error = none
  /-- The other parse is at the end of its text. -/
  isEof : s'.current.isEof = true
  /-- No line break stands before the end. -/
  newlineBefore_eq : s'.newlineBefore = false
  /-- What has been read ends at the same place. -/
  consumedTo_eq : s'.consumedTo = M.place s.consumedTo
  /-- There may be warnings, but no errors. -/
  warnings : ∀ d ∈ s'.problems, d.severity = .warning

/-- **Two states where something may begin.** -/
def Start (s s' : State) : Prop := M.Fresh s s' ∨ M.Over s s'

/-- **Two states side by side.** -/
def At (s s' : State) : Prop := M.Inside s s' ∨ M.Over s s'

/-- **Two states side by side** behind a token that may be the last of a
construct. -/
structure Along (s s' : State) : Prop where
  /-- They are side by side. -/
  at_ : M.At s s'
  /-- The last token read is no dot. -/
  dot : ∀ token ∈ s.taken.head?, token.isPunctuator .dot = false

/-! ## What is still to come -/

/-- A state from which another token is read inside the part. -/
def More (s : State) : Prop :=
  ∃ t, s.Leads M.root t ∧ M.Fits t ∧ s.here < t.consumedTo

/-- A state from which the current token is read and at least another
one. -/
def Beyond (s : State) : Prop :=
  ∃ t, s.Leads M.root t ∧ s.here < t.consumedTo ∧ M.More t

/-- **What a mirror has to show.** -/
class Lawful : Prop where
  /-- Errors are tolerated. -/
  tolerant : M.options.tolerant = true
  /-- There is room for a problem. -/
  room : 0 < M.options.maxDiagnostics
  /-- The order of places is kept. -/
  place_mono {a b : Nat} (h : a ≤ b) : M.place a ≤ M.place b
  /-- What goes on inside the part has begun there. -/
  fits_of_leads {s t : State} (h : s.Leads M.root t) (ht : M.Fits t) :
    M.Fits s
  /-- It does not matter how many levels have been entered. -/
  fits_of_atDepth {s : State} {depth : Option Nat}
    (h : M.Fits (s.atDepth depth)) : M.Fits s
  /-- Nothing is wrong with the part. -/
  problems_of_fits {s : State} (h : M.Fits s) : s.problems = []
  /-- It does not matter how many levels have been entered. -/
  done_atDepth {s : State} (depth : Option Nat) (h : M.Done s) :
    M.Done (s.atDepth depth)
  /-- Nothing behind the part belongs to it. -/
  not_fits_of_past {s t : State} (h : s.Leads M.root t) (hs : M.Done s)
    (hpast : s.consumedTo < t.consumedTo) : ¬M.Fits t
  /-- **A token is read in both texts.** -/
  bump {s s' : State} (h : M.Fresh s s') (heof : s.current.isEof = false)
    (hfits : M.Fits (s.bump M.root)) :
    M.At (s.bump M.root) (s'.bump M.image)
  /-- A slash is read again as a regular expression in both texts, unless
  this shows in the tree. -/
  rescan {s s' : State} (h : M.Fresh s s')
    (hslash : s.current.isSlash = true)
    (hfits : M.Fits (s.rescanRegex M.root)) :
    M.Fresh (s.rescanRegex M.root) (s'.rescanRegex M.image)
      ∨ ∀ pattern flags, M.Mark (.literal ⟨.regex pattern flags,
        (s.rescanRegex M.root).current.text,
        (s.rescanRegex M.root).current.span⟩)
  /-- The superclass's view of an object cannot be the last of what is
  read, unless this shows in the tree. -/
  super {s : State} (h : M.Fits s) (hs : M.Done s) {start : Nat} :
    M.Mark (.expression (.super ⟨start, s.consumedTo⟩))
  /-- What comes next is the same for both scanners. -/
  twin {s s' : State} (h : M.Fresh s s') (hfits : M.Fits s)
    (hslash : s.current.isSlash = false) : M.Twin s.scanner s'.scanner
  /-- Scanners find the same next token, and the same tokens behind it, or
  the other one is at the end of its text. -/
  next {x x' : Scanner} (h : M.Twin x x') :
    x'.peek = M.token x.peek
        ∧ (x.peek.isSlash = false → x.peek.isEof = false →
          M.Twin x.nextSignificant.scanner x'.nextSignificant.scanner)
      ∨ x'.peek.isEof = true
  /-- A token that is going to be read is seen by both scanners. -/
  seen {s s' : State} (h : M.Fresh s s')
    (hslash : s.current.isSlash = false) (hbeyond : M.Beyond s) :
    s'.scanner.peek = M.token s.scanner.peek

/-! ## Levels -/

section Levels

variable {M} [M.Lawful] {s s' : State} (depth depth' : Option Nat)

omit [M.Lawful] in
/-- How many levels have been entered does not matter inside the part. -/
theorem Fresh.atDepth (h : M.Fresh s s') :
    M.Fresh (s.atDepth depth) (s'.atDepth depth') :=
  { h with
    good := h.good.atDepth depth
    good' := h.good'.atDepth depth' }

/-- It does not matter at the end of the part either. -/
theorem Over.atDepth (h : M.Over s s') :
    M.Over (s.atDepth depth) (s'.atDepth depth') :=
  { h with
    good := h.good.atDepth depth
    good' := h.good'.atDepth depth'
    done := Lawful.done_atDepth depth h.done }

/-- Nor does it where a production begins. -/
theorem Start.atDepth (h : M.Start s s') :
    M.Start (s.atDepth depth) (s'.atDepth depth') :=
  h.imp (.atDepth depth depth') (.atDepth depth depth')

/-- Nor does it behind one. -/
theorem Along.atDepth (h : M.Along s s') :
    M.Along (s.atDepth depth) (s'.atDepth depth') where
  at_ := h.at_.imp
    (fun h => { h.toFresh.atDepth depth depth' with
      newlineBefore_eq := h.newlineBefore_eq })
    (.atDepth depth depth')
  dot := h.dot

/-- So parses that stand beside each other do so on the next level. -/
theorem Start.enter (h : M.Start s s') : M.Start s.enter s'.enter :=
  h.atDepth _ _

theorem Along.enter (h : M.Along s s') : M.Along s.enter s'.enter :=
  h.atDepth _ _

end Levels

end Mirror

end ScriptTree
