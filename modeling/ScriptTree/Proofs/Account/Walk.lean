import ScriptTree.Proofs.Account.Script
import ScriptTree.Proofs.Account.Stream
import ScriptTree.Proofs.Parse.Outcome

/-!
# What a walk finds of a text

A walk over a tree comes by its leaves, and the tokens that were read to
make the tree are spent on them. Where a parse found nothing to complain
about, these tokens are the significant tokens of the text. So the walk
finds each literal of the text once, in the order of the text, and each
name, but for those with a meaning of their own where they stand
(`parse_finds`).

A regular expression in the place of a slash is no token of the text, and
with it in the tree the walk and the tokens tell of different things.
-/

namespace ScriptTree

/-! ## Literals as they are written -/

/-- Whether tokens of the kind are literals. -/
def TokenKind.isLiteral : TokenKind → Bool
  | number | string | template | regex => true
  | _ => false

/-- A token as a literal is written: its kind, its text, and where it
stands. -/
def Token.written (t : Token) : TokenKind × String × Span :=
  (t.kind, t.text, t.span)

/-- A literal as it is written, unless that is a reserved word. -/
def Literal.written? (l : Literal) : Option (TokenKind × String × Span) :=
  l.kind.tokenKind?.map fun kind => (kind, l.raw, l.span)

/-- **A regular expression in the place of a slash**: it begins where the
tokens of the text tell of one. -/
def Literal.ReplacesSlash (source : List Char) (l : Literal) : Prop :=
  l.kind.tokenKind? = some .regex
    ∧ ∃ t ∈ tokens source, t.isSlash = true ∧ t.span.start = l.span.start

theorem LiteralKind.isLiteral_of_tokenKind? {kind : LiteralKind}
    {k : TokenKind} (h : kind.tokenKind? = some k) : k.isLiteral = true := by
  cases kind <;> cases h <;> rfl

namespace Node

/-- **The literals a walk visits.** -/
def literals (n : Node) : List Literal := n.leaves.filterMap Leaf.literal?

/-- **The names a walk visits.** -/
def names (n : Node) : List Identifier := n.leaves.filterMap Leaf.name?

/-- **A tree that keeps the slashes of a text**: no regular expression in
it stands in the place of one. -/
def KeepsSlashes (source : List Char) (n : Node) : Prop :=
  ∀ l ∈ n.literals, ¬l.ReplacesSlash source

end Node

/-! ## Tokens that are spent -/

/-- A literal is a significant token. -/
theorem Token.isSignificant_of_isLiteral {t : Token}
    (h : t.kind.isLiteral = true) : t.isSignificant = true := by
  unfold isSignificant isEof
  revert h
  cases t.kind <;> simp [TokenKind.isLiteral, TokenKind.isExtra]

/-- A token that need not be in the tree is significant, and no
literal. -/
theorem Token.IsSilent.isSignificant {t : Token} (h : t.IsSilent) :
    t.isSignificant = true ∧ t.kind.isLiteral = false := by
  unfold IsSilent at h
  unfold Token.isSignificant isEof
  revert h
  cases t.kind <;> simp [TokenKind.isLiteral, TokenKind.isExtra]

/-- A reserved word is significant, and no literal. -/
theorem Token.isSignificant_of_keyword {t : Token} {k : Keyword}
    (h : t.kind = .keyword k) :
    t.isSignificant = true ∧ t.kind.isLiteral = false := by
  rw [isSignificant, isEof, h]
  exact ⟨rfl, rfl⟩

/-- A name is spelled with a name or a reserved word. -/
theorem Parse.kind_of_namesProperty {t : Token}
    (h : namesProperty t = true) :
    t.kind = .identifier ∨ ∃ k, t.kind = .keyword k := by
  unfold namesProperty at h
  split at h
  · exact .inl ‹_›
  · exact .inr ⟨_, ‹_›⟩
  · exact nomatch h

theorem Parse.isSignificant_of_namesProperty {t : Token}
    (h : namesProperty t = true) :
    t.isSignificant = true ∧ t.kind.isLiteral = false := by
  rcases kind_of_namesProperty h with hk | ⟨k, hk⟩
  · rw [Token.isSignificant, Token.isEof, hk]
    exact ⟨rfl, rfl⟩
  · exact Token.isSignificant_of_keyword hk

namespace Spent

variable {ts : List Token} {ls : List Leaf} {t : Token}

/-- Only significant tokens are spent. -/
theorem isSignificant (h : Spent ts ls) :
    ∀ t ∈ ts, t.isSignificant = true := by
  induction h with
  | nil => exact fun _ ht => nomatch ht
  | silent h _ ih => exact List.forall_mem_cons.2 ⟨h.isSignificant.1, ih⟩
  | name h _ ih =>
    exact List.forall_mem_cons.2
      ⟨(Parse.isSignificant_of_namesProperty h).1, ih⟩
  | literal h _ ih =>
    refine List.forall_mem_cons.2 ⟨?_, ih⟩
    rcases h with hkind | ⟨k, _, hk⟩
    · exact Token.isSignificant_of_isLiteral
        (LiteralKind.isLiteral_of_tokenKind? hkind)
    · exact (Token.isSignificant_of_keyword hk).1

/-- **The literals are those of the tokens**, in their order. -/
theorem literals_eq (h : Spent ts ls) :
    (ls.filterMap Leaf.literal?).filterMap Literal.written?
      = (ts.filter (·.kind.isLiteral)).map Token.written := by
  have hother : ∀ {t : Token} {ts : List Token}, t.kind.isLiteral = false →
      (t :: ts).filter (·.kind.isLiteral)
        = ts.filter (·.kind.isLiteral) := fun h =>
    List.filter_cons_of_neg (by simp [h])
  induction h with
  | nil => rfl
  | silent h _ ih => rw [hother h.isSignificant.2, ih]
  | name h _ ih =>
    rw [hother (Parse.isSignificant_of_namesProperty h).2,
      List.filterMap_cons_none rfl, ih]
  | @literal t ts ls kind h _ ih =>
    show (_ :: ls.filterMap Leaf.literal?).filterMap Literal.written? = _
    rcases h with hkind | ⟨k, hword, hk⟩
    · have hwritten : Literal.written? ⟨kind, t.text, t.span⟩
          = some t.written := by
        rw [Literal.written?, hkind]
        rfl
      have hthis : (t :: ts).filter (·.kind.isLiteral)
          = t :: ts.filter (·.kind.isLiteral) :=
        List.filter_cons_of_pos (LiteralKind.isLiteral_of_tokenKind? hkind)
      rw [List.filterMap_cons_some hwritten, hthis, List.map_cons, ih]
    · have hwritten : Literal.written? ⟨kind, t.text, t.span⟩ = none := by
        rw [Literal.written?, LiteralKind.tokenKind?_of_word? hword]
        rfl
      rw [List.filterMap_cons_none hwritten,
        hother (Token.isSignificant_of_keyword hk).2, ih]

/-- **The names are those of some tokens**, in their order. -/
theorem exists_names (h : Spent ts ls) :
    ∃ us : List Token, us.Sublist ts
      ∧ (∀ u ∈ us, Parse.namesProperty u = true)
      ∧ ls.filterMap Leaf.name? = us.map Parse.identifierOf := by
  induction h with
  | nil => exact ⟨[], .slnil, fun _ hu => (nomatch hu), rfl⟩
  | silent _ _ ih | literal _ _ ih =>
    obtain ⟨us, hsub, hnames, heq⟩ := ih
    exact ⟨us, hsub.cons _, hnames, heq⟩
  | name h _ ih =>
    obtain ⟨us, hsub, hnames, heq⟩ := ih
    refine ⟨_, hsub.cons_cons _, List.forall_mem_cons.2 ⟨h, hnames⟩, ?_⟩
    exact congrArg (_ :: ·) heq

/-- **A name is not lost**, unless it may have a meaning of its own. -/
theorem name_or_soft (h : Spent ts ls) (ht : t ∈ ts)
    (hkind : t.kind = .identifier) :
    Parse.identifierOf t ∈ ls.filterMap Leaf.name? ∨ t.text ∈ softWords := by
  induction h with
  | nil => exact nomatch ht
  | silent h _ ih =>
    rcases List.mem_cons.1 ht with rfl | ht
    · rw [Token.IsSilent, hkind] at h
      exact .inr h
    · exact ih ht
  | name _ _ ih =>
    rcases List.mem_cons.1 ht with rfl | ht
    · exact .inl List.mem_cons_self
    · exact (ih ht).imp_left (List.mem_cons_of_mem _)
  | literal h _ ih =>
    rcases List.mem_cons.1 ht with rfl | ht
    · rcases h with h | ⟨k, _, hk⟩
      · have hliteral := LiteralKind.isLiteral_of_tokenKind? h
        rw [hkind] at hliteral
        exact nomatch hliteral
      · exact nomatch hkind.symm.trans hk
    · exact ih ht

/-- A regular expression is spent on one. -/
theorem exists_regex (h : Spent ts ls) (ht : t ∈ ts)
    (hkind : t.kind = .regex) :
    ∃ l ∈ ls.filterMap Leaf.literal?, l.kind.tokenKind? = some .regex
      ∧ l.span = t.span := by
  have hwritten : t.written ∈
      (ls.filterMap Leaf.literal?).filterMap Literal.written? := by
    rw [h.literals_eq]
    exact List.mem_map_of_mem (List.mem_filter.2 ⟨ht, by rw [hkind]; rfl⟩)
  obtain ⟨l, hl, heq⟩ := List.mem_filterMap.1 hwritten
  obtain ⟨k, hk, hpair⟩ := Option.map_eq_some_iff.1 heq
  obtain ⟨rfl, _, hspan⟩ : k = t.kind ∧ l.raw = t.text ∧ l.span = t.span := by
    simpa [Token.written] using hpair
  exact ⟨l, hl, hkind ▸ hk, hspan⟩

/-- **A name** is spelled with a token that can name a property. -/
theorem exists_name (h : Spent ts ls) {id : Identifier}
    (hid : .name id ∈ ls) : ∃ t ∈ ts,
      Parse.namesProperty t = true ∧ id = Parse.identifierOf t := by
  obtain ⟨us, hsub, hnames, heq⟩ := h.exists_names
  have hmem : id ∈ ls.filterMap Leaf.name? :=
    List.mem_filterMap.2 ⟨_, hid, rfl⟩
  rw [heq] at hmem
  obtain ⟨t, ht, rfl⟩ := List.mem_map.1 hmem
  exact ⟨t, hsub.subset ht, hnames t ht, rfl⟩

/-- **A literal** is written with a token that can be one. -/
theorem exists_literal (h : Spent ts ls) {l : Literal}
    (hl : .literal l ∈ ls) : ∃ t ∈ ts,
      l.kind.Suits t ∧ l.raw = t.text ∧ l.span = t.span := by
  induction h with
  | nil => exact nomatch hl
  | @silent t ts ls _ _ ih =>
    obtain ⟨u, hu, hsuits⟩ := ih hl
    exact ⟨u, List.mem_cons_of_mem _ hu, hsuits⟩
  | @name t ts ls _ _ ih =>
    rcases List.mem_cons.1 hl with hl | hl
    · exact nomatch hl
    · obtain ⟨u, hu, hsuits⟩ := ih hl
      exact ⟨u, List.mem_cons_of_mem _ hu, hsuits⟩
  | @literal t ts ls kind h _ ih =>
    rcases List.mem_cons.1 hl with hl | hl
    · obtain rfl := Leaf.literal.inj hl
      exact ⟨t, List.mem_cons_self, h, rfl, rfl⟩
    · obtain ⟨u, hu, hsuits⟩ := ih hl
      exact ⟨u, List.mem_cons_of_mem _ hu, hsuits⟩

end Spent

/-! ## Parses without a problem -/

namespace State

variable {root : Context} {t : State} {ns : List Node}

/-- **At the end of a text** in which nothing has gone wrong, the tokens
that were read are spent, and they are the significant ones, unless the
parse has strayed with one of them. -/
theorem Gathers.spent_of_eof (h : (initial root).Gathers root ns t)
    (hclean : t.Clean root) (heof : t.current.isEof = true) :
    ∃ ts, t.known
        = t.current :: (ts.reverse ++ [(blank root.source).current])
      ∧ Spent ts (ns.flatMap Node.leaves)
      ∧ (significantTokens root.source = ts
        ∨ ∃ x ∈ ts, x.Replaces root.source) := by
  obtain ⟨ts, htaken, hspent⟩ := h.spent hclean
  have hfirst : (initial root).taken = [(blank root.source).current] :=
    (List.cons.inj (bump_known root (blank root.source))).2
  have hknown : t.known
      = t.current :: (ts.reverse ++ [(blank root.source).current]) := by
    rw [known, htaken, hfirst]
  have hreached : t.Reached root := h.acts
  refine ⟨ts, hknown, hspent, hreached.follows_or_strays.imp
    (fun hfollows => ?_) (fun hstrays => ?_)⟩
  · obtain ⟨front, text, hfaces⟩ := hreached.good.faces
    have hbehind := Scanner.filter_stream_of_rest (hfaces.rest_of_eof heof)
    have hlast : [t.current].filter Token.isSignificant = [] := by
      simp [Token.isSignificant, heof]
    have hall : ts.filter Token.isSignificant = ts :=
      List.filter_eq_self.2 hspent.isSignificant
    rw [hfollows, hknown, List.reverse_cons, List.reverse_append,
      List.reverse_reverse, List.filter_append, List.filter_append,
      List.filter_append, hbehind, hlast, hall, List.append_nil,
      List.append_nil]
    rfl
  · obtain ⟨x, hx, hreplaces⟩ := hstrays
    refine ⟨x, ?_, hreplaces⟩
    have hregex := hreplaces.1
    rw [hknown, List.mem_cons, List.mem_append, List.mem_singleton,
      List.mem_reverse] at hx
    rcases hx with rfl | hx | rfl
    · simp [Token.isEof, hregex] at heof
    · exact hx
    · cases hregex

end State

section Quiet

variable {options : Options} {table : OperatorTable} {source : List Char}

/-- **A parse without a problem** ends in a state in which nothing has gone
wrong. -/
theorem runScript_clean (htolerant : options.tolerant = true)
    (hroom : 0 < options.maxDiagnostics)
    (hquiet : (parseWith options table source).diagnostics = []) :
    (runScript source options table).2.Clean
      (.ofSource source options table) := by
  have hreached := runScript_reached options table source
  have hproblems : (runScript source options table).2.problems = [] := hquiet
  refine ⟨hreached.good.aborted_eq htolerant, ?_, ?_⟩ <;> rw [hproblems]
  · exact hroom
  · exact fun _ hd => nomatch hd

/-- **The tokens a parse has read** are spent on the leaves of its tree, if
it found nothing to complain about. -/
theorem runScript_spent (htolerant : options.tolerant = true)
    (hroom : 0 < options.maxDiagnostics)
    (hquiet : (parseWith options table source).diagnostics = []) :
    ∃ ts, (∀ t ∈ ts, t ∈ (runScript source options table).2.known)
      ∧ Spent ts
        (Node.program (parseWith options table source).program).leaves
      ∧ (significantTokens source = ts
        ∨ ∃ x ∈ ts, x.Replaces source) := by
  have hend := (runScript_ensures options table source).2.isEof htolerant
  have hclean := runScript_clean htolerant hroom hquiet
  rw [Node.leaves_of_leaf?_eq_none rfl]
  obtain ⟨ts, hknown, hspent, hstream⟩ :=
    (runScript_gathers options table source).spent_of_eof hclean hend
  refine ⟨ts, fun t ht => ?_, hspent, hstream⟩
  rw [hknown]
  exact List.mem_cons_of_mem _
    (List.mem_append_left _ (List.mem_reverse.2 ht))

/-- **What the tokens of a text are spent on** where its parse found
nothing to complain about: the leaves of the tree. -/
theorem parseWith_spent (htolerant : options.tolerant = true)
    (hroom : 0 < options.maxDiagnostics)
    (hquiet : (parseWith options table source).diagnostics = []) :
    ∃ ts, Spent ts
        (Node.program (parseWith options table source).program).leaves
      ∧ (significantTokens source = ts
        ∨ ∃ x ∈ ts, x.Replaces source) := by
  obtain ⟨ts, -, hspent⟩ := runScript_spent htolerant hroom hquiet
  exact ⟨ts, hspent⟩

end Quiet

/-- **A tree in which a walk finds what there is in a text.** -/
structure Node.Finds (source : List Char) (n : Node) : Prop where
  /-- The literals are those of the text, in its order. -/
  literals : n.literals.filterMap Literal.written?
    = ((tokens source).filter (·.kind.isLiteral)).map Token.written
  /-- Every name is a name of the text, or a reserved word. -/
  names : ∀ id ∈ n.names, id.span.start < id.span.stop
    ∧ ∃ t ∈ tokens source, id = Parse.identifierOf t
      ∧ (t.kind = .identifier ∨ ∃ k, t.kind = .keyword k)
  /-- The names are in the order of the text, each of them once. -/
  pairwise : n.names.Pairwise (fun a b => a.span.stop ≤ b.span.start)
  /-- Only a name that may have a meaning of its own is not found. -/
  of_identifier : ∀ t ∈ tokens source, t.kind = .identifier →
    Parse.identifierOf t ∈ n.names ∨ t.text ∈ softWords

/-- **The leaves of a tree are what its text is spent on.** -/
theorem Spent.finds {source : List Char} {n : Node}
    (h : Spent (significantTokens source) n.leaves) : n.Finds source := by
  have hstream := tokens_stream source
  have hsub : (significantTokens source).Sublist (tokens source) :=
    List.filter_sublist
  obtain ⟨us, hus, hnames, heq⟩ := h.exists_names
  refine ⟨?_, fun id hid => ?_, ?_, fun t ht hkind => ?_⟩
  · refine h.literals_eq.trans (congrArg _ ?_)
    rw [significantTokens, List.filter_filter]
    refine List.filter_congr (fun t _ => ?_)
    cases hliteral : t.kind.isLiteral with
    | false => rfl
    | true => exact Token.isSignificant_of_isLiteral hliteral
  · rw [Node.names, heq] at hid
    obtain ⟨t, ht, rfl⟩ := List.mem_map.1 hid
    have hmem := (hus.trans hsub).subset ht
    have hkind := Parse.kind_of_namesProperty (hnames t ht)
    refine ⟨(hstream.fits t hmem ?_).1.start_lt_stop, t, hmem, rfl, hkind⟩
    rcases hkind with hk | ⟨k, hk⟩ <;> simp [hk]
  · rw [Node.names, heq, List.pairwise_map]
    exact hstream.pairwise.sublist (hus.trans hsub)
  · refine h.name_or_soft (List.mem_filter.2 ⟨ht, ?_⟩) hkind
    rw [Token.isSignificant, Token.isEof, hkind]
    rfl

/-- **Every name and every literal reaches the tree once**, where a parse
found nothing to complain about, if no regular expression of the tree
stands in the place of a slash. -/
theorem parse_finds (source : List Char)
    (hquiet : (parse source).diagnostics = [])
    (hslash : (Node.program (parse source).program).KeepsSlashes source) :
    (Node.program (parse source).program).Finds source := by
  obtain ⟨ts, hspent, hstream⟩ :=
    parseWith_spent rfl (by decide) hquiet
  rcases hstream with rfl | ⟨x, hx, hregex, y, hy, hyslash, hyx⟩
  · exact hspent.finds
  · obtain ⟨l, hl, hkind, hspan⟩ := hspent.exists_regex hx hregex
    exact absurd ⟨hkind, y, hy, hyslash, hyx.trans (by rw [hspan])⟩
      (hslash l hl)

/-- A slash that divides, a regular expression, a reserved word that names
a property, and `of`, which is not found. -/
theorem parse_finds_of :
    let source := "for (const y of [1]) o.if = /a/g.test(y / 'é')".toList
    let tree := Node.program (parse source).program
    (parse source).diagnostics = []
      ∧ tree.KeepsSlashes source
      ∧ tree.Finds source := by
  intro source tree
  have hquiet : (parse source).diagnostics = [] := by decide +kernel
  have hslash : tree.KeepsSlashes source := by
    unfold Node.KeepsSlashes Literal.ReplacesSlash
    decide +kernel
  exact ⟨hquiet, hslash, parse_finds source hquiet hslash⟩

end ScriptTree
