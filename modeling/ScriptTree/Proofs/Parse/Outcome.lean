import ScriptTree.Parse.Outcome
import ScriptTree.Proofs.Parse.Rank
import ScriptTree.Proofs.Tree.Coverage
import ScriptTree.Tree.Coverage

/-!
# What may be relied on of a tree

Three properties of the tree that parsing answers with, for every text
and every choice of options. All nodes are in their places
(`parseWith_nested`). Where errors are tolerated and comments kept,
nothing of the text is lost: what is in no statement and no comment is
filler (`parseWith_losesNothing`). And the operands of every operator
bind as tightly as they must, if the operator table is the standard one
(`parseWith_ranked`); the other two hold for all tables.

They are stated with spans, levels and lists alone. The states of the
parse, which the proofs are about, are gone from them.
-/

namespace ScriptTree

/-! ## Spans in a span -/

/-- **Spans in a span**, one behind the other. -/
structure Span.Nest (outer : Span) (spans : List Span) : Prop where
  /-- Each of them lies in it. -/
  contains : ∀ s ∈ spans, outer.contains s = true
  /-- None begins before the one before it has ended. -/
  pairwise : spans.Pairwise (fun s t => s.stop ≤ t.start)

/-- The places of a row are spans in a span. -/
theorem Row.nest {α : Type} {R : α → Nat → Nat → Prop} {f : α → Span}
    {lo hi : Nat} {xs : List α} (h : Row R lo hi xs)
    (hf : ∀ x b e, R x b e → f x = ⟨b, e⟩) :
    Span.Nest ⟨lo, hi⟩ (xs.map f) := by
  refine ⟨fun s hs => ?_, ?_⟩
  · obtain ⟨x, hx, rfl⟩ := List.mem_map.1 hs
    obtain ⟨b, e, hb, _, he, hR⟩ := h.exists_of_mem hx
    rw [hf x b e hR, Span.contains, Bool.and_eq_true]
    exact ⟨decide_eq_true hb, decide_eq_true he⟩
  · rw [List.pairwise_map]
    refine h.pairwise.imp (fun {x y} hxy => ?_)
    obtain ⟨b, e, b', e', hx, hy, hle⟩ := hxy
    rw [hf x b e hx, hf y b' e' hy]
    exact hle

/-! ## Nodes in their places -/

/-- Whether the node is a whole script. -/
def Node.isProgram : Node → Bool
  | program _ => true
  | _ => false

/-- **A node with the text it was read from**: its span holds text, what
is right below it lies in the span in the order of the text, and names,
literals and errors are the text they stand for. -/
structure Node.Nested (source : List Char) (n : Node) : Prop where
  /-- The node holds text, unless it is a script: that may be empty. -/
  fits : n.isProgram = false → n.span.Fits source
  /-- The nodes right below it lie in it in order. -/
  children : n.span.Nest (n.children.map Node.span)
  /-- So do its items. -/
  items : n.span.Nest (n.items.map Prod.fst)
  /-- Each item holds text, and its nodes lie in it in order. -/
  item : ∀ i ∈ n.items, i.1.Fits source ∧ i.1.Nest (i.2.map Node.span)
  /-- An operation goes from its first operand to its last. -/
  span_eq : n.isOperation = true →
    ∃ first last, n.children.head? = some first
      ∧ n.children.getLast? = some last
      ∧ n.span = ⟨first.span.start, last.span.stop⟩
  /-- The text a node repeats is the text of its span. -/
  text_eq : ∀ text, n.text? = some text →
    text = String.ofList (n.span.slice source)

/-- What holds of a script and everywhere in its statements holds
everywhere in the script. -/
theorem Node.everywhere_program {P : Node → Prop} {p : Program}
    (hp : P (.program p))
    (hbody : ∀ x ∈ p.body, (Node.statement x).Everywhere P) :
    (Node.program p).Everywhere P := by
  intro n hn
  rcases Node.mem_all_iff.1 hn with rfl | ⟨c, hc, hn⟩
  · exact hp
  · obtain ⟨x, hx, rfl⟩ := List.mem_map.1 hc
    exact hbody x hx n hn

theorem Node.Placed.nested {source : List Char} {n : Node}
    (h : n.Placed source) : n.Nested source where
  fits _ := h.fits
  children := h.children.nest (fun _ _ _ hc => hc)
  items := h.items.nest (fun _ _ _ hi => hi.1)
  item i hi := by
    obtain ⟨b, e, _, _, _, hspan, hfits, hrow⟩ := h.items.exists_of_mem hi
    refine ⟨hfits, ?_⟩
    rw [hspan]
    exact hrow.nest (fun _ _ _ hc => hc)
  span_eq := h.span_eq
  text_eq := h.text_eq

/-! ## Nothing is lost -/

/-- **A script that keeps its text**: statements and comments each hold
text and stand in order, and a character in none of them is filler. -/
structure Program.LosesNothing (source : List Char) (p : Program) :
    Prop where
  /-- The statements hold text. -/
  body_fits : ∀ x ∈ p.body, x.span.Fits source
  /-- They stand in order. -/
  body_pairwise :
    p.body.Pairwise (fun x y => x.span.stop ≤ y.span.start)
  /-- The comments hold text. -/
  comments_fit : ∀ c ∈ p.comments, c.span.Fits source
  /-- They stand in order. -/
  comments_pairwise :
    p.comments.Pairwise (fun c d => c.span.stop ≤ d.span.start)
  /-- What is in none of them is filler. -/
  covers : ∀ a c b, source = a ++ c :: b →
    (∀ s ∈ p.coveringSpans, ¬s.Holds a c) → IsFiller c

/-! ## A whole script -/

namespace Parse

/-- Where nothing is read nothing is left uncovered. -/
theorem CoveredBy.still {root : Context} {s t : State} {b : Nat}
    {xs : List Statement} (hxs : CoveredBy root b xs s)
    (h : s.Leads root t) (hstill : s.Still t) : CoveredBy root b xs t := by
  unfold CoveredBy
  rw [hstill.here_eq]
  refine hxs.mono (fun y hy => ?_)
  rw [List.mem_append] at hy ⊢
  exact hy.imp_right
    (fun hy => (h.comments_prefix.map Comment.span).subset hy)

/-- **What a run over a whole script ensures**: it reads statements, in
tolerant parses up to the end of the text, and loses nothing then. -/
structure ScriptRead (root : Context) (P : Expression → Prop) (s : State)
    (xs : List Statement) (t : State) : Prop where
  /-- The statements stand in a row. -/
  row : State.ReadsRow (As root P .statement) s.here xs t
  /-- A tolerant parse goes on to the end. -/
  isEof : root.options.tolerant = true → t.current.isEof = true
  /-- A tolerant parse that keeps comments leaves out nothing. -/
  covered : root.options.tolerant = true →
    root.options.collectComments = true →
    CoveredBy root s.here [] s → CoveredBy root s.here xs t

theorem script_ensures {root : Context} {s : State} {g : Grammar}
    {P : Expression → Prop} (hg : g.Sound root P)
    (hroot : byteLength root.source < root.turns) :
    Action.Ensures root (script g) root s (ScriptRead root P s) := by
  refine .look s.current rfl ?_
  refine (statementList_ensures hg .eof).bind fun xs t hst hxs => ?_
  have hread : ScriptRead root P s xs t := by
    refine ⟨hxs.row, fun htolerant => ?_, fun htolerant hkeep => ?_⟩
    · have hend := hxs.atListEnd htolerant hroot (by omega)
      rwa [State.atListEnd, show (root.inList .eof).listEnd = .eof from rfl,
        Bool.or_false] at hend
    · exact hxs.covered htolerant hroot hkeep
  dsimp only
  refine .ite (fun _ => ?_) (fun _ => .pure hread)
  have hreport : Action.Ensures root reportEmpty root t
      (fun _ u => t.Still u) :=
    .look root rfl (Action.report_ensures _ _ _ _)
  refine hreport.bind fun _ u htu hstill => .pure ?_
  refine ⟨hread.row.later htu, fun h => ?_, fun h₁ h₂ h₃ => ?_⟩
  · rw [hstill.current_eq]
    exact hread.isEof h
  · exact (hread.covered h₁ h₂ h₃).still htu hstill

end Parse

variable (options : Options) (table : OperatorTable) (source : List Char)

/-- **The run of a parse**, from the front of the text. -/
theorem runScript_ensures :
    (State.initial (.ofSource source options table)).Leads
        (.ofSource source options table) (runScript source options table).2
      ∧ Parse.ScriptRead (.ofSource source options table)
        (Expression.Traces (.ofSource source options table))
        (State.initial (.ofSource source options table))
        (runScript source options table).1
        (runScript source options table).2 :=
  Parse.script_ensures (Grammar.levels_sound _ _) (Nat.lt_succ_self _)
    (.refl _) (State.initial_good _)

/-- The statements of a script are trees in their places, and come from
the productions of the grammar. -/
theorem parseWith_body :
    ∀ x ∈ (parseWith options table source).program.body,
      (Node.statement x).Everywhere (fun m => m.Placed source
        ∧ m.Traced (Expression.Traces (.ofSource source options table))) := by
  intro x hx
  obtain ⟨_, hread⟩ := runScript_ensures options table source
  obtain ⟨_, _, _, _, _, hfills⟩ := hread.row.row.exists_of_mem hx
  exact hfills.2

/-- **Every node of a tree** is in its place. -/
theorem parseWith_nested :
    (Node.program (parseWith options table source).program).Everywhere
      (Node.Nested source) := by
  refine Node.everywhere_program ?_ (fun x hx n hn =>
    (parseWith_body options table source x hx n hn).1.nested)
  obtain ⟨hleads, hread⟩ := runScript_ensures options table source
  have hrow := hread.row.parts.row.mono (Nat.zero_le _)
    hleads.good.isCut.le
  exact
    { fits := fun h => nomatch h
      children := hrow.nest (fun _ _ _ hc => hc.spans)
      items := ⟨fun _ h => (nomatch h), .nil⟩
      item := fun _ h => nomatch h
      span_eq := fun h => nomatch h
      text_eq := fun _ h => nomatch h }

/-- **Every expression of a tree** has operands that bind as tightly as
they must, if the operators are the standard ones. -/
theorem parseWith_ranked :
    (Node.program (parseWith options .standard source).program).Everywhere
      (Node.Traced Expression.Ranked) := by
  refine Node.everywhere_program trivial (fun x hx n hn => ?_)
  have htraced := (parseWith_body options .standard source x hx n hn).2
  cases n
  case expression e => exact htraced.ranked rfl (Nat.lt_succ_self _)
  all_goals trivial

/-- Every statement and every comment holds text. -/
theorem parseWith_fits :
    ∀ s ∈ (parseWith options table source).program.coveringSpans,
      s.Fits source := by
  intro s hs
  obtain ⟨hleads, hread⟩ := runScript_ensures options table source
  rcases List.mem_append.1 hs with hs | hs
  · obtain ⟨x, hx, rfl⟩ := List.mem_map.1 hs
    obtain ⟨_, _, _, _, _, hfills⟩ := hread.row.row.exists_of_mem hx
    exact hfills.placed.fits
  · obtain ⟨c, hc, rfl⟩ := List.mem_map.1 hs
    obtain ⟨_, _, _, _, _, hoccupies⟩ :=
      hleads.good.comments.exists_of_mem hc
    exact hoccupies.2

/-- Statements and comments cover the text of a tolerant parse that keeps
comments, filler aside. -/
theorem parseWith_covers (htolerant : options.tolerant = true)
    (hkeep : options.collectComments = true) :
    Covers (parseWith options table source).program.coveringSpans source 0
      (byteLength source) := by
  obtain ⟨hleads, hread⟩ := runScript_ensures options table source
  have hend := hleads.good.here_of_eof (hread.isEof htolerant)
  -- What lies before the first token is left to the comments.
  have hfront := (hleads.good_start.covers hkeep).mono (fun s hs =>
    List.mem_append_right ((runScript source options table).1.map
      Statement.span) ((hleads.comments_prefix.map Comment.span).subset hs))
  rw [State.initial_consumedTo] at hfront
  have hcovers := hfront.trans (hread.covered htolerant hkeep (.refl _ _ _))
  rw [hend] at hcovers
  exact hcovers

/-- **Nothing is lost** by a tolerant parse that keeps comments. -/
theorem parseWith_losesNothing (htolerant : options.tolerant = true)
    (hkeep : options.collectComments = true) :
    (parseWith options table source).program.LosesNothing source := by
  obtain ⟨hleads, hread⟩ := runScript_ensures options table source
  have hbody := hread.row.row.nest (f := Statement.span)
    (fun _ _ _ hx => hx.spans)
  have hcomments := hleads.good.comments.nest (f := Comment.span)
    (fun _ _ _ hc => hc.1)
  have hfits := parseWith_fits options table source
  refine
    { body_fits := fun x hx =>
        hfits _ (List.mem_append_left _ (List.mem_map_of_mem hx))
      body_pairwise := List.pairwise_map.1 hbody.pairwise
      comments_fit := fun c hc =>
        hfits _ (List.mem_append_right _ (List.mem_map_of_mem hc))
      comments_pairwise := List.pairwise_map.1 hcomments.pairwise
      covers := fun a c b hab hnone => ?_ }
  have hcovers := parseWith_covers options table source htolerant hkeep
  refine (hcovers a c b hab (Nat.zero_le _) ?_).resolve_left ?_
  · have hpos := Char.utf8Size_pos c
    show byteLength a < byteLength source
    rw [hab, byteLength_append, byteLength_cons]
    omega
  · rintro ⟨s, hs, hholds⟩
    exact hnone s hs hholds

/-- A comment and two statements, the first of them broken. -/
theorem parseWith_losesNothing_standard :
    Options.standard.tolerant = true
      ∧ Options.standard.collectComments = true
      ∧ (parseWith .standard .standard
          "/* a */ f(1 +; g()".toList).program.LosesNothing
        "/* a */ f(1 +; g()".toList :=
  ⟨rfl, rfl, parseWith_losesNothing .standard .standard _ rfl rfl⟩

/-!
## The uncovered text of a parse

A tolerant parse that keeps comments loses nothing, so its uncovered text
should be empty. Two notions of blank text meet here, though: what the
scanner passes over, and white space. A byte order mark is the one
character that is passed over and is no white space. So uncovered text is
found where such a mark stands outside of all statements and comments, and
nowhere else.
-/

/-- Filler is white space, unless it is a byte order mark. -/
theorem IsFiller.isWhiteSpace {c : Char} (h : IsFiller c)
    (hc : c ≠ '\ufeff') : isWhiteSpace c = true := by
  rcases h with rfl | h
  · rfl
  · exact isWhiteSpace_of_isBlank h hc

/-- The spans of a tree run between cuts of the text. -/
theorem parseWith_isCut :
    ∀ s ∈ (parseWith options table source).program.coveringSpans,
      IsCut source s.start ∧ IsCut source s.stop := fun s hs =>
  have h := parseWith_fits options table source s hs
  ⟨h.isCut_start, h.isCut_stop⟩

/-- **No text of a tolerant parse is uncovered** that keeps comments,
exactly if each byte order mark lies in a statement or a comment. -/
theorem parseWith_uncovered_eq_nil_iff (htolerant : options.tolerant = true)
    (hkeep : options.collectComments = true) :
    (parseWith options table source).program.uncovered source = []
      ↔ ∀ a b, source = a ++ '\ufeff' :: b →
        ∃ s ∈ (parseWith options table source).program.coveringSpans,
          s.Holds a '\ufeff' := by
  rw [Program.uncovered_eq_nil_iff (parseWith_isCut options table source)]
  refine ⟨fun h a b heq => h a _ b heq rfl, fun h a c b heq hc => ?_⟩
  have hlt : byteLength a < byteLength source := by
    have hpos := Char.utf8Size_pos c
    rw [heq, byteLength_append, byteLength_cons]
    omega
  have hcovers := parseWith_covers options table source htolerant hkeep
  rcases hcovers a c b heq (Nat.zero_le _) hlt with hholds | hfiller
  · exact hholds
  · by_cases hmark : c = '\ufeff'
    · subst hmark
      exact h a b heq
    · exact absurd (hfiller.isWhiteSpace hmark) (Bool.eq_false_iff.1 hc)

/-- A byte order mark in a comment, behind which a statement is broken. -/
theorem parseWith_uncovered_comment :
    (parseWith .standard .standard "/*\ufeff*/ f(1 +".toList).program.uncovered
        "/*\ufeff*/ f(1 +".toList = []
      ↔ ∀ a b, "/*\ufeff*/ f(1 +".toList = a ++ '\ufeff' :: b →
        ∃ s ∈ (parseWith .standard .standard
          "/*\ufeff*/ f(1 +".toList).program.coveringSpans,
          s.Holds a '\ufeff' :=
  parseWith_uncovered_eq_nil_iff .standard .standard _ rfl rfl

/-- **A byte order mark may be left uncovered**, as it is at the front of
this script: its only statement begins behind the mark. -/
theorem exists_uncovered_mark :
    ¬∀ (options : Options) (table : OperatorTable) (source : List Char),
      options.tolerant = true → options.collectComments = true →
      (parseWith options table source).program.uncovered source = [] := by
  intro h
  have hnil := h .standard .standard "\ufeffa;".toList rfl rfl
  rw [Program.uncovered_eq_nil_iff (parseWith_isCut _ _ _)] at hnil
  obtain ⟨s, hs, hholds⟩ := hnil [] '\ufeff' "a;".toList rfl rfl
  have hspans : (parseWith .standard .standard
      "\ufeffa;".toList).program.coveringSpans = [⟨3, 5⟩] := by
    decide +kernel
  rw [hspans] at hs
  obtain rfl := List.mem_singleton.1 hs
  exact absurd hholds.1 (by decide)

end ScriptTree
