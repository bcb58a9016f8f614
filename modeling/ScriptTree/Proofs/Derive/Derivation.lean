import Mathlib.Data.Set.Lattice
import ScriptTree.Proofs.Account.Act
import ScriptTree.Proofs.Mirror.Action

/-!
# How trees come out of a run

A `Derivation` retraces the run of a parse from one state to another: which
tokens were read, which nodes were made of what was read, where it was asked
whether a line break stands before the current token, and where this did not
matter. It has one rule for each of these, and none for the productions of
the grammar; what holds of all trees of all runs is proved by induction on
it.

Three things depend on where in a script the run stands, and a derivation
keeps track of each.

* What closes the innermost statement list. It is known from the tree
  (`Node.inside`), and the last statements of a list may do without a
  terminator because of it (`Node.EndsAt`).
* Whether line breaks matter. Outside of statement lists they are asked for
  only where they do, so no rule that reads something between brackets lets
  them matter there, except that statements in braces stand for
  themselves.
* The **marks** that the run leaves behind: what lies between the last token
  read and the current one at every place where a line break was asked for,
  and from where to where line breaks did not matter.
-/

namespace ScriptTree

/-! ## The ends of statements -/

/-- **Whether a token closes a statement list.** The end of the text closes
them all. -/
def Token.closes (t : Token) (listEnd : ListEnd) : Bool :=
  t.isEof ||
    match listEnd with
    | .eof => false
    | .brace => t.isPunctuator .rBrace
    | .switchCase =>
      t.isPunctuator .rBrace || t.isKeyword .kwCase
        || t.isKeyword .kwDefault

/-- Whether an export has to be ended by a terminator. Functions and classes
need none. -/
def Export.isTerminated : Export → Bool
  | all _ | named .. | bindings _ => true
  | declaration _ => false
  | default e => !e.isDeclarationLike

/-- **What ends a statement**, if it has to be ended by a terminator:
whether it may do without one as the last of its list. -/
def Statement.terminator? : Statement → Option Bool
  | declaration _ | doWhile .. | importNames .. => some false
  | exportNames e _ => if e.isTerminated then some false else none
  | breakLoop _ | continueLoop _ | returnValue .. | yieldValue ..
  | throwValue .. => some true
  | expression e _ => if e.isDeclarationLike then none else some true
  | conditional .. | switch .. | forLoop .. | forIn .. | forOf ..
  | whileLoop .. | tryBlock .. | empty _ | block _ | error _ => none

/-! ## Marks -/

/-- **What a run leaves behind.** -/
inductive Mark where
  /-- A line break was asked for that might be at the offset. -/
  | asked (offset : Nat)
  /-- Between the offsets line breaks did not matter. -/
  | free (start stop : Nat)

/-- **A piece of a text is marked as free**: it lies where line breaks did
not matter. -/
def Span.FreeIn (p : Span) (K : Set Mark) : Prop :=
  ∃ start stop, Mark.free start stop ∈ K ∧ start ≤ p.start ∧ p.stop ≤ stop

theorem Span.FreeIn.mono {p : Span} {K K' : Set Mark} (h : p.FreeIn K)
    (hK : K ⊆ K') : p.FreeIn K' := by
  obtain ⟨start, stop, hmem, hle⟩ := h
  exact ⟨start, stop, hK hmem, hle⟩

namespace State

/-- What the list the current token stands in is closed by. -/
theorem atListEnd_eq (ctx : Context) (s : State) :
    s.atListEnd ctx = s.current.closes ctx.listEnd := rfl

/-- **What lies between the last token read and the current one**, as a set
of offsets. -/
def gap (s : State) : Set Nat := {q | s.consumedTo ≤ q ∧ q < s.here}

/-- **The marks of a question** for a line break before the current token: it
was asked for everywhere in the gap. -/
def question (s : State) : Set Mark := {m | ∃ q ∈ s.gap, m = .asked q}

theorem asked_mem_question {s : State} {q : Nat} :
    Mark.asked q ∈ s.question ↔ q ∈ s.gap := by
  refine ⟨fun ⟨_, hq, heq⟩ => ?_, fun hq => ⟨q, hq, rfl⟩⟩
  rwa [Mark.asked.inj heq]

theorem free_not_mem_question {s : State} {a b : Nat} :
    Mark.free a b ∉ s.question := fun ⟨_, _, heq⟩ => Mark.noConfusion heq

/-- **A state where a statement may end**: behind a semicolon, behind a line
break, or – if it may be the last of its list without a terminator – where
the list is closed. -/
def EndsStatement (s : State) (listEnd : ListEnd) (mayTrail : Bool) :
    Prop :=
  (∃ token ∈ s.taken.head?, token.isPunctuator .semicolon = true)
    ∨ s.newlineBefore = true
    ∨ mayTrail = true ∧ s.current.closes listEnd = true

end State

namespace Node

/-- Whether a node is a statement. -/
def isStatement : Node → Bool
  | statement _ => true
  | _ => false

/-- Whether a node is a block. -/
def isBlock : Node → Bool
  | block _ => true
  | _ => false

/-- **Whether a node begins with a bracket and ends with the one that closes
it.** Objects do too; nothing is said about them that is not said of other
nodes. -/
def isBracketed : Node → Bool
  | block _ | expression (.parenthesized ..) | expression (.array ..) => true
  | _ => false

/-- The nodes in the header of a loop that counts. -/
def headerParts (init? : Option ForInit) (test? update? : Option Expression) :
    List Node :=
  init?.toList.map ForInit.part ++ test?.toList.map .expression
    ++ update?.toList.map .expression

/-- **What of a node is read between brackets**: the whole of a node that has
brackets of its own, unless they are those of a statement list, and
otherwise the parts of it that brackets of its own keep together. -/
def freed : Node → List Span
  | expression (.parenthesized _ span) | expression (.array _ span)
  | expression (.object _ span) => [span]
  | expression (.call _ arguments _) => arguments.map Expression.span
  | expression (.subscript _ index _) => [index.span]
  | expression (.conditional _ consequent _ _) => [consequent.span]
  | statement (.conditional test ..) | statement (.whileLoop test ..)
  | statement (.doWhile _ test _) | statement (.switch test ..) =>
    [test.span]
  | statement (.forLoop init? test? update? ..) =>
    (headerParts init? test? update?).map span
  | statement (.forIn _ left right ..)
  | statement (.forOf _ left right ..) => [left.span, right.span]
  | _ => []

theorem freeIn_of_nil {n : Node} {K : Set Mark} (h : n.freed = []) :
    ∀ p ∈ n.freed, p.FreeIn K := by
  rw [h]
  exact List.forall_mem_nil _

/-- **What closes the statement lists right inside a node**, given what
closes the list around it. -/
def inside : Node → ListEnd → ListEnd
  | program _, _ => .eof
  | block _, _ => .brace
  | statement (.switch ..), _ => .switchCase
  | _, listEnd => listEnd

/-- What ends a node, if it is a statement that has to be ended. -/
def terminator? : Node → Option Bool
  | statement s => s.terminator?
  | _ => none

/-- **A node ends where a statement may**, if it is one that has to be
ended; and it stands between the first token that was read for it and that
place. -/
def EndsAt (n : Node) (listEnd : ListEnd) (s t : State) : Prop :=
  ∀ mayTrail, n.terminator? = some mayTrail →
    t.EndsStatement listEnd mayTrail ∧ n.span = t.spanFrom s.here

theorem EndsAt.of_none {n : Node} {listEnd : ListEnd} {s t : State}
    (h : n.terminator? = none) : n.EndsAt listEnd s t := by
  intro mayTrail hsome
  rw [h] at hsome
  exact nomatch hsome

theorem EndsAt.of_some {n : Node} {listEnd : ListEnd} {mayTrail : Bool}
    {s t : State} (h : n.terminator? = some mayTrail)
    (hends : t.EndsStatement listEnd mayTrail)
    (hspan : n.span = t.spanFrom s.here) : n.EndsAt listEnd s t := by
  intro mayTrail' hsome
  obtain rfl := Option.some.inj (h.symm.trans hsome)
  exact ⟨hends, hspan⟩

/-- **A node occurs in another one**, with what closes the statement list it
stands in. -/
inductive Within : Node → ListEnd → Node → ListEnd → Prop where
  /-- It is the node itself. -/
  | here (n : Node) (listEnd : ListEnd) : Within n listEnd n listEnd
  /-- It occurs in a node right below. -/
  | child {n c m : Node} {listEnd e : ListEnd} (mem : c ∈ n.children)
      (within : Within c (n.inside listEnd) m e) : Within n listEnd m e

/-- **Only programs, blocks and statements have statements right below
them.** -/
theorem isStatement_child {n c : Node} (hc : c ∈ n.children)
    (hn : n.isStatement = false) (hinside : ∀ e, n.inside e = e) :
    c.isStatement = false := by
  cases n with
  | program p => exact nomatch hinside .brace
  | block b => exact nomatch hinside .eof
  | statement s => exact nomatch hn
  | identifier | literal | error => exact nomatch hc
  | declaration d =>
    obtain ⟨x, _, hx⟩ := List.mem_flatMap.1 hc
    cases x <;> simp only [Declarator.parts, List.mem_cons, List.mem_map,
      List.not_mem_nil, or_false] at hx
    all_goals grind [isStatement]
  | expression e =>
    cases e
    case object members span =>
      obtain ⟨x, _, hx⟩ := List.mem_flatMap.1 hc
      cases x with
      | pair key value span =>
        cases key <;> grind [ObjectMember.parts, PropertyKey.part, isStatement]
      | method | error => grind [ObjectMember.parts, isStatement]
    case arrow isAsync params body span =>
      cases body <;>
        grind [children, Expression.children, ArrowBody.part, isStatement]
    all_goals grind [children, Expression.children, isStatement]
  | function | classDef | method => grind [children, isStatement]

end Node

/-! ## Derivations -/

open State in
/-- **A derivation**: the run from one state to another, and the forest that
came out of it. It tells what closes the innermost statement list, whether
line breaks matter, and which marks the run leaves behind. -/
inductive Derivation (root : Context) :
    ListEnd → Bool → Set Mark → State → List Node → State → Prop where
  /-- Nothing is read. -/
  | rest {e : ListEnd} {matters : Bool} {s t : State}
      (acts : Acts root s t) (still : s.Still t) :
      Derivation root e matters ∅ s [] t
  /-- It is asked whether a line break stands before the current token. -/
  | look {e : ListEnd} {s : State} :
      Derivation root e true s.question s [] s
  /-- Something is read where line breaks do not matter. -/
  | free {e : ListEnd} {matters : Bool} {K : Set Mark} {s t : State}
      {ns : List Node} (inside : Derivation root e false K s ns t) :
      Derivation root e matters (insert (.free s.here t.consumedTo) K) s ns t
  /-- A token is read. -/
  | token {e : ListEnd} {matters : Bool} {s : State}
      (isEof : s.current.isEof = false) :
      Derivation root e matters ∅ s [] (s.bump root)
  /-- A slash is read again as a regular expression. -/
  | rescan {e : ListEnd} {matters : Bool} {s : State}
      (slash : s.current.kind = .punctuator .slash
        ∨ s.current.kind = .punctuator .slashEq) :
      Derivation root e matters ∅ s [] (s.rescanRegex root)
  /-- One run follows another. -/
  | append {e : ListEnd} {matters : Bool} {K K' : Set Mark} {s t u : State}
      {ns ns' : List Node} (before : Derivation root e matters K s ns t)
      (behind : Derivation root e matters K' t ns' u) :
      Derivation root e matters (K ∪ K') s (ns ++ ns') u
  /-- A node is made of what was read. -/
  | node {e : ListEnd} {matters : Bool} {K : Set Mark} {s t : State}
      {n : Node} (isBracketed : n.isBracketed = false)
      (parts : Derivation root (n.inside e) matters K s n.children t)
      (freed : ∀ p ∈ n.freed, p.FreeIn K) (ends : n.EndsAt e s t) :
      Derivation root e matters K s [n] t
  /-- A node is made of what was read between two brackets. Line breaks
  matter there only if they are those of a block. -/
  | bracket {e : ListEnd} {matters matters' : Bool} {K : Set Mark}
      {s t : State} {n : Node} (isBracketed : n.isBracketed = true)
      (quiet : matters' = true → n.isBlock = true)
      (opener : s.current.isEof = false)
      (parts : Derivation root (n.inside e) matters' K (s.bump root)
        n.children t)
      (closer : t.current.isEof = false)
      (span : n.span = (t.bump root).spanFrom s.here) :
      Derivation root e matters K s [n] (t.bump root)

namespace Derivation

open State

variable {root : Context} {e : ListEnd} {matters : Bool} {K K' : Set Mark}
  {r s t u : State} {ns ns' : List Node}

theorem refl : Derivation root e matters ∅ s [] s :=
  .rest .refl ⟨rfl, rfl, rfl⟩

/-- **A derivation retraces a run.** -/
theorem acts (h : Derivation root e matters K s ns t) : Acts root s t := by
  induction h with
  | rest acts => exact acts
  | look => exact .refl
  | token isEof => exact .single (.bump isEof)
  | rescan slash => exact .single (.rescan slash)
  | free _ ih => exact ih
  | append _ _ ih ih' => exact ih.trans ih'
  | node _ _ _ _ ih => exact ih
  | bracket _ _ opener _ closer _ ih =>
    exact (Relation.ReflTransGen.head (.bump opener) ih).tail
      (.bump closer)

/-- **Trees that are no statements** are read the same way in any statement
list. -/
theorem inList (h : Derivation root e matters K s ns t)
    (hns : ∀ n ∈ ns, n.isStatement = false) (e' : ListEnd) :
    Derivation root e' matters K s ns t := by
  have hnone : ∀ {n : Node}, n.isStatement = false →
      n.terminator? = none := by
    intro n hn
    cases n <;> first | rfl | exact nomatch hn
  have hinside : ∀ n : Node, n.isStatement = false →
      (∀ e e', n.inside e = n.inside e') ∨ ∀ e, n.inside e = e := by
    intro n hn
    cases n with
    | program | block => exact .inl (fun _ _ => rfl)
    | statement => exact nomatch hn
    | _ => exact .inr (fun _ => rfl)
  induction h generalizing e' with
  | rest acts still => exact .rest acts still
  | look => exact .look
  | token isEof => exact .token isEof
  | rescan slash => exact .rescan slash
  | free _ ih => exact .free (ih hns e')
  | append _ _ ih ih' =>
    exact .append (ih (fun n hn => hns n (List.mem_append_left _ hn)) e')
      (ih' (fun n hn => hns n (List.mem_append_right _ hn)) e')
  | @node e _ _ _ _ n isBracketed parts freed _ ih =>
    have hn := hns n List.mem_cons_self
    refine .node isBracketed ?_ freed (.of_none (hnone hn))
    rcases hinside n hn with hsame | hid
    · rw [hsame e' e]
      exact parts
    · exact ih (fun c hc => Node.isStatement_child hc hn hid) _
  | @bracket e _ _ _ _ _ n isBracketed quiet opener parts closer span ih =>
    have hn := hns n List.mem_cons_self
    refine .bracket isBracketed quiet opener ?_ closer span
    rcases hinside n hn with hsame | hid
    · rw [hsame e' e]
      exact parts
    · exact ih (fun c hc => Node.isStatement_child hc hn hid) _

/-! ## Putting derivations together -/

/-- What is read behind need not be in a tree. -/
theorem later (h : Derivation root e matters K s ns t)
    (h' : Derivation root e matters K' t [] u) :
    Derivation root e matters (K ∪ K') s ns u := by
  have hall := h.append h'
  rwa [List.append_nil] at hall

/-- A run in which nothing was asked for and nothing was made may follow. -/
theorem past (h : Derivation root e matters K s ns t)
    (h' : Derivation root e matters ∅ t [] u) :
    Derivation root e matters K s ns u := by
  have hall := h.later h'
  rwa [Set.union_empty] at hall

/-- So may it come before. -/
theorem before (h : Derivation root e matters ∅ s [] t)
    (h' : Derivation root e matters K t ns u) :
    Derivation root e matters K s ns u := by
  have hall := h.append h'
  rwa [Set.empty_union, List.nil_append] at hall

/-- **A line break is asked for** behind what was read. -/
theorem asks (h : Derivation root e true K s ns t) :
    Derivation root e true (K ∪ t.question) s ns t :=
  h.later .look

/-- **A node that needs no terminator** is made of what was read. -/
theorem wrap {n : Node} (h : Derivation root e matters K s n.children t)
    (hbracketed : n.isBracketed = false) (hinside : n.inside e = e)
    (hends : n.terminator? = none) (hfreed : ∀ p ∈ n.freed, p.FreeIn K) :
    Derivation root e matters K s [n] t :=
  .node hbracketed (by rwa [hinside]) hfreed (.of_none hends)

/-- **What is read inside a level** is read outside of it. -/
theorem leave (h : Derivation root e matters K s.enter ns t) :
    Derivation root e matters K s ns t.leave := by
  have henter : Derivation root e matters ∅ s [] s.enter :=
    .rest (.single (.level _)) ⟨rfl, rfl, rfl⟩
  exact (henter.before h).past (.rest (.single (.level _)) ⟨rfl, rfl, rfl⟩)

end Derivation

end ScriptTree
