import ScriptTree.Proofs.Mirror.Action
import ScriptTree.Proofs.Paired.Word
import ScriptTree.Proofs.Parse.Grammar

/-!
# What is read between two states

A run reads tokens and makes nodes of them (`State.Pairs`), and so does the
run that follows it. Brackets are read in two halves: the one that opens
comes first, and whoever reads what is behind it reads the one that closes
as well, or leaves it (`State.Closes`).

At a tolerant point the tokens that were read before the failure become
part of the error, whatever brackets are among them.
-/

namespace ScriptTree

variable {root ctx : Context} {s t u r : State} {α β : Type}

namespace State

/-! ## Tokens that are read -/

/-- **A token is read**: it is the last one taken. -/
structure Shifts (s : State) (token : Token) (t : State) : Prop
    extends s.Took token t where
  /-- It has been taken. -/
  taken_eq : t.taken = s.current :: s.taken

theorem bump_taken (root : Context) (s : State) :
    (s.bump root).taken = s.current :: s.taken := by
  obtain ⟨t, _, heq⟩ := bump_eq root s
  rw [heq]

/-- **The tokens of a run**: it reads none, or the first of them is the one
that was current and the last is where it has read to. -/
theorem Leads.exists_word (h : s.Leads root t) :
    ∃ ts, t.taken = ts.reverse ++ s.taken
      ∧ (ts = [] ∧ t.here = s.here
        ∨ s.here < t.consumedTo
          ∧ Span.Cuts ⟨s.here, t.consumedTo⟩ ts ts) := by
  obtain ⟨hs, hsteps⟩ := h
  induction hsteps with
  | refl => exact ⟨[], rfl, .inl ⟨rfl, rfl⟩⟩
  | @tail t u hst step ih =>
    obtain ⟨ts, htaken, hts⟩ := ih
    have hleads : s.Leads root t := ⟨hs, hst⟩
    have hsame {u : State} (htaken' : u.taken = t.taken)
        (hhere : u.here = t.here) (hcons : u.consumedTo = t.consumedTo) :
        ∃ ts, u.taken = ts.reverse ++ s.taken
          ∧ (ts = [] ∧ u.here = s.here
            ∨ s.here < u.consumedTo
              ∧ Span.Cuts ⟨s.here, u.consumedTo⟩ ts ts) := by
      rw [htaken', hhere, hcons]
      exact ⟨ts, htaken, hts⟩
    cases step with
    | bump isEof =>
      have hlt := hleads.good.here_lt_stop isEof
      have hle := hleads.here_le
      refine ⟨ts ++ [t.current], ?_, .inr ⟨?_, List.infix_rfl, ?_, ?_⟩⟩
      · rw [bump_taken, htaken, List.reverse_append]
        rfl
      · rw [bump_consumedTo]
        omega
      · rcases hts with ⟨rfl, hhere⟩ | ⟨-, hcuts⟩
        · exact ⟨t.current, rfl, hhere⟩
        · obtain ⟨x, hx, hstart⟩ := hcuts.start_eq
          exact ⟨x, by rw [List.head?_append, Option.mem_def.1 hx]; rfl, hstart⟩
      · refine ⟨t.current, by rw [List.getLast?_append]; rfl, ?_⟩
        rw [bump_consumedTo]
    | rescan slash =>
      obtain ⟨v, hv, heq⟩ := rescanRegex_eq root t
      refine hsame ?_ (rescanRegex_good hleads.good slash).2.1 ?_ <;>
        rw [heq, hv.eq]
    | report kind severity message span =>
      have h := report_reported root kind severity message span t
      refine hsame ?_ ?_ ?_ <;> rw [h.eq]
      rfl
    | record event => exact hsame rfl rfl rfl

/-- Where no token is passed none is taken. -/
theorem Leads.taken_eq_of_le (h : s.Leads root t)
    (hle : t.consumedTo ≤ s.here) : t.taken = s.taken := by
  obtain ⟨ts, htaken, ⟨rfl, -⟩ | ⟨hpast, -⟩⟩ := h.exists_word
  · exact htaken
  · exact absurd hpast (Nat.not_lt.2 hle)

/-! ## Nodes that are made -/

/-- **Tokens are read** on the way from one state to another, and nodes made
of them. -/
def Pairs (s : State) (ns : List Node) (t : State) : Prop :=
  ∃ ts, t.taken = ts.reverse ++ s.taken ∧ Paired ts ns

/-- **A bracket is read behind the nodes**, which closes what was opened
before them. -/
def Closes (p : Punctuator) (s : State) (ns : List Node) (t : State) :
    Prop :=
  ∃ u c, s.Pairs ns u ∧ c.isPunctuator p = true
    ∧ t.taken = c :: u.taken ∧ t.consumedTo = c.span.stop

/-- **Brackets are read**, and nodes between them. -/
structure Brackets (p : Punctuator) (s : State) (ns : List Node)
    (t : State) : Prop where
  /-- The current token opens a bracket. -/
  opens : s.current.isPunctuator p = true
  /-- Behind it the nodes are read and the bracket is closed. -/
  rest : ∃ (q : Punctuator) (v : State), p.closer? = some q
    ∧ v.taken = s.current :: s.taken ∧ v.Closes q ns t

namespace Pairs

variable {n : Node} {ns ms : List Node}

/-- No token is read. -/
theorem of_taken_eq (h : t.taken = s.taken) : s.Pairs [] t :=
  ⟨[], h, .nil⟩

theorem refl (s : State) : s.Pairs [] s := .of_taken_eq rfl

/-- **Nothing is read** where the state stays at its place. -/
theorem of_still (h : s.Leads root t) (hstill : s.Still t) :
    s.Pairs [] t := by
  refine .of_taken_eq (h.taken_eq_of_le ?_)
  rw [hstill.consumedTo_eq]
  exact h.good_start.consumedTo_le

/-- **One run follows another.** -/
theorem trans (h : s.Pairs ns t) (h' : t.Pairs ms u) :
    s.Pairs (ns ++ ms) u := by
  obtain ⟨ts, htaken, hts⟩ := h
  obtain ⟨us, htaken', hus⟩ := h'
  refine ⟨ts ++ us, ?_, hts.append hus⟩
  rw [htaken', htaken, List.reverse_append, List.append_assoc]

/-- What is read behind need not be in the tree. -/
theorem later (h : s.Pairs ns t) (h' : t.Pairs [] u) : s.Pairs ns u := by
  have hall := h.trans h'
  rwa [List.append_nil] at hall

/-- **A token that is no bracket** is read. -/
theorem token {token : Token} (h : s.Shifts token t)
    (hplain : s.current.isBracket = false) : s.Pairs [] t :=
  ⟨[s.current], h.taken_eq, .plain hplain⟩

section Rows

variable {mk : α → Node} {parts : α → List Node} {x : α} {found : List α}

/-- One more thing is read, behind those found before it. -/
theorem concat (hfound : s.Pairs (found.reverse.flatMap parts) t)
    (hx : t.Pairs (parts x) u) :
    s.Pairs ((x :: found).reverse.flatMap parts) u := by
  rw [List.reverse_cons, List.flatMap_append, List.flatMap_singleton]
  exact hfound.trans hx

/-- One more node is. -/
theorem concat_node (hfound : s.Pairs (found.reverse.map mk) t)
    (hx : t.Pairs [mk x] u) :
    s.Pairs ((x :: found).reverse.map mk) u := by
  rw [List.reverse_cons, List.map_append]
  exact hfound.trans hx

end Rows

/-- **A node without brackets** is made of what was read. -/
theorem wrap (h : s.Pairs n.children t) (hn : n.isError = false)
    (hnone : n.bracketing? = none) : s.Pairs [n] t := by
  obtain ⟨ts, htaken, hts⟩ := h
  exact ⟨ts, htaken, hts.wrap hn hnone⟩

/-- **An error** takes up all that was read. -/
theorem error (h : s.Leads root t) {e : ErrorNode}
    (hspan : e.span = ⟨s.here, t.consumedTo⟩)
    (hpast : s.here < t.consumedTo) : s.Pairs [.error e] t := by
  obtain ⟨ts, htaken, ⟨-, hhere⟩ | ⟨-, hcuts⟩⟩ := h.exists_word
  · have hle := h.good.consumedTo_le
    omega
  · exact ⟨ts, htaken, .error (hspan ▸ hcuts)⟩

/-- **What is read inside a level** is read outside of it. -/
theorem leave (h : s.enter.Pairs ns t) : s.Pairs ns t.leave := h

/-- **A bracket is closed** behind what was read. -/
theorem close (h : s.Pairs ns t) {token : Token} {p : Punctuator}
    (hp : t.current.isPunctuator p = true) (hshift : t.Shifts token u) :
    s.Closes p ns u := by
  refine ⟨t, t.current, h, hp, hshift.taken_eq, ?_⟩
  rw [hshift.consumedTo_eq, hshift.token_eq]

end Pairs

namespace Closes

variable {p : Punctuator} {ns : List Node}

/-- What is read inside a level is read outside of it. -/
theorem leave (h : s.enter.Closes p ns t) : s.Closes p ns t.leave := h

end Closes

namespace Brackets

variable {p : Punctuator} {n : Node} {ns ms : List Node}

/-- **A bracket is opened** in front of what was read. -/
theorem open_ {q : Punctuator} {token : Token}
    (hp : s.current.isPunctuator p = true) (hshift : s.Shifts token t)
    (hpq : p.closer? = some q) (h : t.Closes q ns u) : s.Brackets p ns u :=
  ⟨hp, q, t, hpq, hshift.taken_eq, h⟩

/-- **The tokens that are read**: the two brackets and those between
them. -/
theorem exists_word (h : s.Brackets p ns t) :
    ∃ inside c, t.taken = (s.current :: (inside ++ [c])).reverse ++ s.taken
      ∧ s.current.Pairs c ∧ t.consumedTo = c.span.stop
      ∧ Paired inside ns := by
  obtain ⟨hp, q, v, hpq, hv, u, c, ⟨inside, hu, hinside⟩, hc, ht, hstop⟩ := h
  refine ⟨inside, c, ?_, ⟨p, q, hpq, hp, hc⟩, hstop, hinside⟩
  rw [ht, hu, hv]
  simp

/-- Brackets are read past the one that opens. -/
theorem past (h : s.Brackets p ns t) (hleads : s.Leads root t) :
    s.here < t.consumedTo := by
  obtain ⟨inside, c, htaken, -⟩ := h.exists_word
  refine hleads.still_or_past.resolve_left fun ⟨hcons, _⟩ => ?_
  have hle := hleads.good_start.consumedTo_le
  have hlength := congrArg List.length
    ((hleads.taken_eq_of_le (hcons ▸ hle)).symm.trans htaken)
  rw [List.length_append, List.length_reverse, List.length_cons] at hlength
  omega

/-- **The brackets need not be those of a node.** -/
theorem plain (h : s.Brackets p ns t) : s.Pairs ns t := by
  obtain ⟨inside, c, htaken, hpair, -, hinside⟩ := h.exists_word
  exact ⟨_, htaken, hinside.enclose hpair⟩

/-- **A node in brackets** is made of what was read. -/
theorem node {b : Bracketing} (h : s.Brackets b.opener b.parts t)
    (hb : n.bracketing? = some b) (hfront : b.before? = none)
    (hchildren : n.children = b.parts) (hn : n.isError = false)
    (hspan : n.span = ⟨s.here, t.consumedTo⟩) : s.Pairs [n] t := by
  obtain ⟨inside, c, htaken, hpair, hstop, hinside⟩ := h.exists_word
  refine ⟨_, htaken, Paired.bracket .nil hinside hb hchildren hn h.opens
    hpair (fun _ => ?_) (fun e he => nomatch hfront.symm.trans he) ?_⟩
  · rw [hspan]
    rfl
  · rw [hspan, hstop]

/-- **A node with brackets behind an expression** is made of both. -/
theorem suffix {b : Bracketing} {e : Expression}
    (h : s.Brackets b.opener b.parts t) (hleads : r.Leads root s)
    (he : r.Pairs [.expression e] s) (hpast : r.here < s.consumedTo)
    (hstop : e.span.stop = s.consumedTo) (hb : n.bracketing? = some b)
    (hfront : b.before? = some e)
    (hchildren : n.children = [.expression e] ++ b.parts)
    (hn : n.isError = false) (hends : n.span.stop = t.consumedTo) :
    r.Pairs [n] t := by
  obtain ⟨ts, hs, hts⟩ := he
  obtain ⟨inside, c, htaken, hpair, hcons, hinside⟩ := h.exists_word
  refine ⟨ts ++ s.current :: (inside ++ [c]), ?_, hts.bracket hinside hb
    hchildren hn h.opens hpair (fun h => nomatch hfront.symm.trans h) ?_ ?_⟩
  · rw [htaken, hs, List.reverse_append, List.append_assoc]
  · intro e' he'
    obtain rfl := Option.some.inj (hfront.symm.trans he')
    -- The last token that was read is the last one of the expression.
    obtain ⟨ts', hs', ⟨-, hhere⟩ | ⟨-, hcuts⟩⟩ := hleads.exists_word
    · have hle := hleads.good.consumedTo_le
      omega
    · obtain rfl : ts' = ts := List.reverse_inj.1
        (List.append_cancel_right (hs'.symm.trans hs))
      obtain ⟨x, hx, hx'⟩ := hcuts.stop_eq
      exact ⟨x, hx, hx'.trans hstop.symm⟩
  · rw [hends, hcons]

end Brackets

end State

/-! ## One token -/

open State

theorem Token.isBracket_of_kind {t : Token} {kind : TokenKind}
    (h : t.kind = kind) : t.isBracket = (kind.isOpener || kind.isCloser) := by
  rw [isBracket, h]

namespace Action

theorem advance_shifts (heof : s.current.isEof = false) :
    Ensures root advance ctx s s.Shifts := by
  intro hctx hs
  obtain ⟨hleads, htook⟩ := advance_ensures heof hctx hs
  refine ⟨hleads, htook, ?_⟩
  rw [show (advance ctx s).2 = s.bump ctx from rfl, bump_congr hctx,
    bump_taken]

/-- **A token that is no bracket** is read. -/
theorem advance_pairs (heof : s.current.isEof = false)
    (hplain : s.current.isBracket = false) :
    Ensures root advance ctx s
      (fun token t => s.Shifts token t ∧ s.Pairs [] t) :=
  (advance_shifts heof).mono fun _ _ _ h => ⟨h, .token h hplain⟩

theorem pass_pairs (heof : s.current.isEof = false)
    (hplain : s.current.isBracket = false) :
    Ensures root (discard advance) ctx s (fun _ t => s.Pairs [] t) :=
  ((advance_pairs heof hplain).mono fun _ _ _ h => h.2).discard.mono
    fun _ _ _ ⟨_, h⟩ => h

theorem isBracket_of_isPunctuator {token : Token} {p : Punctuator}
    (h : token.isPunctuator p = true)
    (hp : (p.isOpener || p.isCloser) = false) : token.isBracket = false :=
  (Token.isBracket_of_kind (of_decide_eq_true h)).trans hp

theorem isBracket_of_isKeyword {token : Token} {k : Keyword}
    (h : token.isKeyword k = true) : token.isBracket = false :=
  Token.isBracket_of_kind (of_decide_eq_true h)

theorem isBracket_of_isWord {token : Token} {word : String}
    (h : token.isWord word = true) : token.isBracket = false :=
  Token.isBracket_of_kind (kind_of_isWord h)

/-- **A mark that may be there** is read if it is. -/
theorem eat_shifts (p : Punctuator) :
    Ensures root (eat p) ctx s (fun eaten t =>
      if eaten then s.current.isPunctuator p = true ∧ ∃ token, s.Shifts token t
      else s.Pairs [] t) := by
  refine .look (s.current.isPunctuator p) rfl
    (.ite (fun h => ?_) (fun _ => .pure (.refl s)))
  exact (advance_shifts (isEof_of_isPunctuator h)).discard.bind
    fun _ _ _ ht => .pure ⟨h, ht⟩

theorem eat_pairs (p : Punctuator) (hp : (p.isOpener || p.isCloser) = false) :
    Ensures root (eat p) ctx s (fun _ t => s.Pairs [] t) := by
  refine (eat_shifts p).mono fun eaten t _ h => ?_
  cases eaten with
  | true =>
    obtain ⟨hmark, _, ht⟩ := h
    exact .token ht (isBracket_of_isPunctuator hmark hp)
  | false => exact h

/-- **Nothing is read** where the state stays at its place. -/
theorem Ensures.still {x : Action α} (h : Ensures root x ctx s
    (fun _ t => s.Still t)) : Ensures root x ctx s (fun _ t => s.Pairs [] t) :=
  h.mono fun _ _ hst hstill => .of_still hst hstill

end Action

namespace Parse

open ScriptTree.Action

/-- **A mark is asked for** and read. -/
theorem expectPunctuator_shifts (p : Punctuator) :
    Ensures root (expectPunctuator p) ctx s
      (fun token t => s.current.isPunctuator p = true
        ∧ s.Shifts token t) := by
  refine .look (s.current.isPunctuator p) rfl
    (.ite (fun h => ?_) (fun _ => unexpected_ensures _))
  exact (Ensures.lift (advance_shifts (isEof_of_isPunctuator h))).mono
    fun _ _ _ ht => ⟨h, ht⟩

theorem expectPunctuator_pairs (p : Punctuator)
    (hp : (p.isOpener || p.isCloser) = false) :
    Ensures root (expectPunctuator p) ctx s (fun _ t => s.Pairs [] t) :=
  (expectPunctuator_shifts p).mono fun _ _ _ h =>
    .token h.2 (isBracket_of_isPunctuator h.1 hp)

/-- A bracket that closes what was read is asked for. -/
theorem close_pairs {ns : List Node} (p : Punctuator) (h : r.Pairs ns s) :
    Ensures root (discard (expectPunctuator p)) ctx s
      (fun _ t => r.Closes p ns t) :=
  (expectPunctuator_shifts p).discard.mono fun _ _ _ ⟨_, hp, ht⟩ =>
    h.close hp ht

theorem expectKeyword_pairs (k : Keyword) :
    Ensures root (expectKeyword k) ctx s
      (fun token t => s.Shifts token t ∧ s.Pairs [] t) := by
  refine .look (s.current.isKeyword k) rfl
    (.ite (fun h => ?_) (fun _ => unexpected_ensures _))
  exact .lift (advance_pairs (isEof_of_isKeyword h)
    (isBracket_of_isKeyword h))

theorem expectWord_pairs (word : String) :
    Ensures root (expectWord word) ctx s (fun _ t => s.Pairs [] t) := by
  refine .look (s.current.isWord word) rfl
    (.ite (fun h => ?_) (fun _ => unexpected_ensures _))
  exact (Ensures.lift (advance_pairs (isEof_of_isWord h)
    (isBracket_of_isWord h))).mono fun _ _ _ ht => ht.2

/-- A token that may name a property is no bracket. -/
theorem isBracket_of_namesProperty {token : Token}
    (h : namesProperty token = true) : token.isBracket = false := by
  unfold namesProperty at h
  cases hk : token.kind <;>
    first
    | exact Token.isBracket_of_kind hk
    | simp [hk] at h

/-- **A token is read as a name.** -/
theorem identifierOf_pairs (heof : s.current.isEof = false)
    (hplain : s.current.isBracket = false) :
    Ensures root (liftM advance >>= fun token => pure (identifierOf token))
      ctx s (fun id t => s.Pairs [.identifier id] t) :=
  (Ensures.lift (advance_pairs heof hplain)).bind fun _ _ _ h =>
    .pure (.wrap h.2 rfl rfl)

theorem identifier_pairs :
    Ensures root identifier ctx s
      (fun id t => s.Pairs [.identifier id] t) := by
  refine .look (decide (s.current.kind = .identifier)) rfl
    (.ite (fun h => ?_) (fun _ => unexpected_ensures _))
  have hk : s.current.kind = .identifier := of_decide_eq_true h
  exact identifierOf_pairs (isEof_eq_false hk (fun h => nomatch h))
    (Token.isBracket_of_kind hk)

theorem propertyName_pairs :
    Ensures root propertyName ctx s
      (fun id t => s.Pairs [.identifier id] t) :=
  .look s.current rfl (.ite
    (fun h => identifierOf_pairs (isEof_of_namesProperty h)
      (isBracket_of_namesProperty h))
    (fun _ => unexpected_ensures _))

/-- **A token is read as a literal.** -/
theorem literal_pairs (kind : LiteralKind) (heof : s.current.isEof = false)
    (hplain : s.current.isBracket = false) :
    Ensures root (literal kind) ctx s
      (fun l t => s.Pairs [.literal l] t) :=
  (Ensures.lift (advance_pairs heof hplain)).bind fun _ _ _ h =>
    .pure (.wrap h.2 rfl rfl)

theorem moduleName_pairs :
    Ensures root moduleName ctx s
      (fun l t => s.Pairs [.literal l] t) := by
  refine .look (decide (s.current.kind = .string)) rfl
    (.ite (fun h => ?_) (fun _ => unexpected_ensures _))
  have hk : s.current.kind = .string := of_decide_eq_true h
  exact literal_pairs _ (isEof_eq_false hk (fun h => nomatch h))
    (Token.isBracket_of_kind hk)

end Parse

end ScriptTree
