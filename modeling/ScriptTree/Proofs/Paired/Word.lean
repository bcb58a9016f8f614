import ScriptTree.Proofs.Tree.Place
import ScriptTree.Token.Basic

/-!
# Brackets that close one another

Some tokens are **balanced** if each bracket among them is closed by one of
its kind, and closes one (`Balanced`). Of a node that begins with a bracket
or reads one behind another node, a row of tokens tells where its brackets
are, and what lies between them (`Node.Encloses`): that is balanced, if the
errors in the node are.

The tokens of an error are those that were passed over, whatever they are.
So nothing is said of a node with an error in it whose tokens are not
balanced: it may end at a bracket that was opened inside the error.

`Paired` is what is known of some tokens and the nodes that were made of
them. It is closed under all ways to make more tokens of some.
-/

namespace ScriptTree

/-! ## Brackets -/

/-- **The mark that closes** what a mark opens. -/
def Punctuator.closer? : Punctuator → Option Punctuator
  | lParen => some rParen
  | lBracket => some rBracket
  | lBrace => some rBrace
  | _ => none

namespace Token

/-- Whether a token opens or closes a bracket. -/
def isBracket (t : Token) : Bool := t.kind.isOpener || t.kind.isCloser

/-- **Two brackets of one kind**, the first of which opens. -/
def Pairs (o c : Token) : Prop :=
  ∃ p q, p.closer? = some q ∧ o.isPunctuator p = true
    ∧ c.isPunctuator q = true

end Token

/-- **Tokens whose brackets are balanced.** -/
inductive Balanced : List Token → Prop where
  /-- There is no token. -/
  | nil : Balanced []
  /-- The first token is no bracket. -/
  | plain {t : Token} {ts : List Token} (h : t.isBracket = false)
      (rest : Balanced ts) : Balanced (t :: ts)
  /-- The first token is a bracket that is closed. -/
  | pair {o c : Token} {inside ts : List Token} (h : o.Pairs c)
      (within : Balanced inside) (rest : Balanced ts) :
      Balanced (o :: (inside ++ c :: ts))

namespace Balanced

variable {t o c : Token} {ts us inside : List Token}

theorem append (h : Balanced ts) (h' : Balanced us) : Balanced (ts ++ us) := by
  induction h with
  | nil => exact h'
  | plain ht _ ih => exact .plain ht ih
  | @pair o c inside ts hpair hinside _ _ ih =>
    have heq :
        o :: (inside ++ c :: ts) ++ us = o :: (inside ++ c :: (ts ++ us)) :=
      congrArg (o :: ·) (List.append_assoc ..)
    rw [heq]
    exact .pair hpair hinside ih

/-- One token that is no bracket. -/
theorem one (h : t.isBracket = false) : Balanced [t] := .plain h .nil

/-- Brackets around balanced tokens. -/
theorem enclose (h : o.Pairs c) (hinside : Balanced inside) :
    Balanced (o :: (inside ++ [c])) := .pair h hinside .nil

end Balanced

/-! ## The tokens of a node -/

/-- **The tokens of a span** among others: those from the one that begins
with it to the one that ends with it. -/
structure Span.Cuts (span : Span) (ts part : List Token) : Prop where
  /-- They stand together. -/
  infix_ : part <:+: ts
  /-- The first of them begins where the span begins. -/
  start_eq : ∃ t ∈ part.head?, t.span.start = span.start
  /-- The last of them ends where it ends. -/
  stop_eq : ∃ t ∈ part.getLast?, t.span.stop = span.stop

/-- **What is written in brackets** in a node: the bracket that opens, the
expression in front of it, if it is one of the node's, and the nodes
between the brackets. -/
structure Bracketing where
  /-- The bracket that opens. -/
  opener : Punctuator
  /-- What stands in front of it. -/
  before? : Option Expression
  /-- What stands behind it. -/
  parts : List Node

namespace Node

/-- **The brackets of a node.** -/
def bracketing? : Node → Option Bracketing
  | block b => some ⟨.lBrace, none, b.body.map .statement⟩
  | expression (.parenthesized e _) => some ⟨.lParen, none, [.expression e]⟩
  | expression (.array es _) => some ⟨.lBracket, none, es.map .expression⟩
  | expression (.object ms _) =>
    some ⟨.lBrace, none, ms.flatMap ObjectMember.parts⟩
  | expression (.call e es _) => some ⟨.lParen, some e, es.map .expression⟩
  | expression (.subscript e index _) =>
    some ⟨.lBracket, some e, [.expression index]⟩
  | _ => none

/-- **A tree whose errors are balanced**, as far as some tokens tell. -/
def Whole (ts : List Token) (n : Node) : Prop :=
  ∀ e, .error e ∈ n.all → ∀ part, e.span.Cuts ts part → Balanced part

end Node

/-- **Brackets as they are found among some tokens**: each closes the other,
and what lies between them is balanced if the errors there are. -/
structure Bracketing.Found (b : Bracketing) (span : Span)
    (front : List Token) (o : Token) (inside : List Token) (c : Token)
    (ts : List Token) : Prop where
  /-- The first is the bracket that opens. -/
  opens : o.isPunctuator b.opener = true
  /-- The other is one that closes it. -/
  pairs : o.Pairs c
  /-- The first begins the span, if nothing stands in front of it. -/
  begins (h : b.before? = none) : o.span.start = span.start
  /-- Otherwise it is the next token behind what does. -/
  follows {e : Expression} (h : b.before? = some e) :
    ∃ t ∈ front.getLast?, t.span.stop = e.span.stop
  /-- The other ends the span. -/
  ends : c.span.stop = span.stop
  /-- What lies between them is balanced. -/
  balanced (h : ∀ n ∈ b.parts, n.Whole ts) : Balanced inside

namespace Node

/-- **The brackets of a node are found** among some tokens, if it has
any. -/
def Encloses (ts : List Token) (n : Node) : Prop :=
  ∀ b, n.bracketing? = some b → ∃ front o inside c back,
    ts = front ++ (o :: (inside ++ c :: back))
      ∧ b.Found n.span front o inside c ts

end Node

/-! ## Among more tokens -/

theorem Span.Cuts.among {span : Span} {part ts us : List Token}
    (h : span.Cuts ts part) (hts : ts <:+: us) : span.Cuts us part :=
  { h with infix_ := h.infix_.trans hts }

namespace Node

variable {n : Node} {front back ts us : List Token}

/-- Fewer tokens tell of fewer errors. -/
theorem Whole.among (h : n.Whole us) (hts : ts <:+: us) : n.Whole ts :=
  fun e he part hpart => h e he part (hpart.among hts)

theorem whole_of_child {c : Node} (h : n.Whole ts) (hc : c ∈ n.children) :
    c.Whole ts :=
  fun e he => h e (mem_all_iff.2 (.inr ⟨c, hc, he⟩))

/-- **A node is whole if the nodes below it are**, unless it is an error
itself. -/
theorem Whole.intro (hn : n.isError = false)
    (h : ∀ c ∈ n.children, c.Whole ts) : n.Whole ts := by
  intro e he
  rcases mem_all_iff.1 he with rfl | ⟨c, hc, he⟩
  · exact nomatch hn
  · exact h c hc e he

/-- **Brackets that are found stay found** when there are more tokens. -/
theorem Encloses.among (h : n.Encloses ts) (hts : ts <:+: us) :
    n.Encloses us := by
  intro b hb
  obtain ⟨front, o, inside, c, back, rfl, hfound⟩ := h b hb
  obtain ⟨before, behind, rfl⟩ := hts
  refine ⟨before ++ front, o, inside, c, back ++ behind, ?_, hfound.opens,
    hfound.pairs, hfound.begins, fun he => ?_, hfound.ends,
    fun hwhole => hfound.balanced fun n hn =>
      (hwhole n hn).among ⟨before, behind, rfl⟩⟩
  · simp only [List.append_assoc, List.cons_append]
  · obtain ⟨t, ht, hstop⟩ := hfound.follows he
    exact ⟨t, by rw [List.getLast?_append, Option.mem_def.1 ht]; rfl, hstop⟩

/-- A node without brackets encloses nothing. -/
theorem Encloses.of_none (h : n.bracketing? = none) : n.Encloses ts :=
  fun _ hb => nomatch h.symm.trans hb

end Node

/-! ## Tokens and what was made of them -/

/-- **Tokens and the nodes that were made of them**: their brackets are
balanced if the errors are, and those of the nodes are found among them. -/
structure Paired (ts : List Token) (ns : List Node) : Prop where
  /-- The brackets are balanced, if the errors are. -/
  balanced (h : ∀ n ∈ ns, n.Whole ts) : Balanced ts
  /-- The brackets of the nodes are found, and those of all nodes below. -/
  encloses : ∀ n ∈ ns, n.Everywhere (Node.Encloses ts)

namespace Paired

variable {n : Node} {ns ms : List Node} {t o c : Token}
  {ts us inside : List Token}

theorem nil : Paired [] [] := ⟨fun _ => .nil, nofun⟩

/-- **A token that is no bracket** need not be in a tree. -/
theorem plain (h : t.isBracket = false) : Paired [t] [] :=
  ⟨fun _ => .one h, nofun⟩

/-- What is found is found among more tokens. -/
theorem encloses_among (h : Paired ts ns) (hts : ts <:+: us) :
    ∀ n ∈ ns, n.Everywhere (Node.Encloses us) :=
  fun n hn m hm => (h.encloses n hn m hm).among hts

/-- **One behind the other.** -/
theorem append (h : Paired ts ns) (h' : Paired us ms) :
    Paired (ts ++ us) (ns ++ ms) := by
  have hleft : ts <:+: ts ++ us := (List.prefix_append ts us).isInfix
  have hright : us <:+: ts ++ us := (List.suffix_append ts us).isInfix
  refine ⟨fun hwhole => ?_, fun n hn => ?_⟩
  · obtain ⟨hns, hms⟩ := List.forall_mem_append.1 hwhole
    exact (h.balanced fun n hn => (hns n hn).among hleft).append
      (h'.balanced fun n hn => (hms n hn).among hright)
  · rcases List.mem_append.1 hn with hn | hn
    · exact h.encloses_among hleft n hn
    · exact h'.encloses_among hright n hn

/-- What is below a node is told by the node. -/
theorem of_children (h : Paired ts n.children) (hn : n.isError = false)
    (hself : n.Encloses ts) : Paired ts [n] := by
  refine ⟨fun hwhole => h.balanced fun c hc =>
    Node.whole_of_child (hwhole n List.mem_cons_self) hc, ?_⟩
  refine List.forall_mem_singleton.2 fun m hm => ?_
  rcases Node.mem_all_iff.1 hm with rfl | ⟨c, hc, hm⟩
  · exact hself
  · exact h.encloses c hc m hm

/-- **A node without brackets** is made of what was read. -/
theorem wrap (h : Paired ts n.children) (hn : n.isError = false)
    (hnone : n.bracketing? = none) : Paired ts [n] :=
  h.of_children hn (.of_none hnone)

/-- **The only node below another**, which has no error in it. -/
theorem of_child {c : Node} (h : Paired ts [n]) (hc : n.children = [c])
    (hn : n.isError = false) (hwhole : c.Whole ts) : Paired ts [c] := by
  have hmem : c ∈ n.children := hc ▸ List.mem_singleton_self c
  refine ⟨fun _ => h.balanced (List.forall_mem_singleton.2 (.intro hn ?_)),
    List.forall_mem_singleton.2 fun m hm => ?_⟩
  · rw [hc]
    exact List.forall_mem_singleton.2 hwhole
  · exact h.encloses n (List.mem_singleton_self n) m
      (Node.mem_all_iff.2 (.inr ⟨c, hmem, hm⟩))

/-- **An error** takes up all tokens that were passed over. -/
theorem error {e : ErrorNode} (h : e.span.Cuts ts ts) :
    Paired ts [.error e] := by
  refine ⟨fun hwhole => ?_, List.forall_mem_singleton.2 fun m hm => ?_⟩
  · exact hwhole _ List.mem_cons_self e (Node.mem_all_self _) ts h
  · rcases Node.mem_all_iff.1 hm with rfl | ⟨c, hc, _⟩
    · exact .of_none rfl
    · exact nomatch hc

/-- **Brackets around tokens** that need not be in a tree. -/
theorem enclose (hpair : o.Pairs c) (h : Paired inside ns) :
    Paired (o :: (inside ++ [c])) ns := by
  have hinfix : inside <:+: o :: (inside ++ [c]) := ⟨[o], [c], rfl⟩
  exact ⟨fun hwhole => .enclose hpair (h.balanced fun n hn =>
    (hwhole n hn).among hinfix), h.encloses_among hinfix⟩

/-- **A node with brackets**, behind what it has in front of them. -/
theorem bracket {b : Bracketing} (h : Paired ts ns)
    (hparts : Paired inside b.parts) (hb : n.bracketing? = some b)
    (hchildren : n.children = ns ++ b.parts) (hn : n.isError = false)
    (hopens : o.isPunctuator b.opener = true) (hpair : o.Pairs c)
    (hbegins : b.before? = none → o.span.start = n.span.start)
    (hfollows : ∀ e, b.before? = some e →
      ∃ t ∈ ts.getLast?, t.span.stop = e.span.stop)
    (hends : c.span.stop = n.span.stop) :
    Paired (ts ++ o :: (inside ++ [c])) [n] := by
  have hinfix : inside <:+: ts ++ o :: (inside ++ [c]) :=
    ⟨ts ++ [o], [c], by simp⟩
  refine of_children ?_ hn fun b' hb' => ?_
  · rw [hchildren]
    exact h.append (hparts.enclose hpair)
  · obtain rfl := Option.some.inj (hb.symm.trans hb')
    exact ⟨ts, o, inside, c, [], rfl, hopens, hpair, hbegins, hfollows _,
      hends, fun hwhole =>
        hparts.balanced fun m hm => (hwhole m hm).among hinfix⟩

end Paired

end ScriptTree
