import ScriptTree.Proofs.Account.Problem
import ScriptTree.Proofs.Derive.Derivation
import ScriptTree.Proofs.Mirror.Peek
import ScriptTree.Proofs.Token.Walk

/-!
# A run replayed in another text

A text and another one of the same length may differ in what stands between
their tokens. A parse of the other text finds the same tokens, and so it
does the same as the parse of the first, unless it is asked whether a line
break stands before a token, and in front of that is a **spot**: a place
where the texts differ in this.

A `Replay` is the other parse, as far as a run of the first is concerned
that ends well (`Replay.Fits`). It says which states of the two stand
**beside** one another, and its laws say that they do so step by step. That
the texts have the same length is all that is said of how they differ; how
the steps come about is a matter of the scanner, and is left to whoever
makes a replay.

Where only one run is of interest there is nothing to replay
(`Replay.alone`).
-/

namespace ScriptTree

namespace State

variable {root : Context} {s t : State}

/-- **A state of a parse that has found nothing to complain about**, though
there is room for it. -/
structure Quiet (root : Context) (s : State) : Prop extends s.Clean root where
  /-- No problem was taken down. -/
  none : s.problems = []

/-- **Where there is nothing to complain about in the end** there never
was. -/
theorem Acts.quiet (h : Acts root s t) (ht : t.Quiet root) :
    s.Quiet root := by
  refine ⟨Acts.clean h ht.toClean, ?_⟩
  induction h with
  | refl => exact ht.none
  | tail _ hact ih =>
    have hnone := List.prefix_nil.1 (ht.none ▸ hact.problems_prefix)
    exact ih ⟨hact.clean ht.toClean, hnone⟩

/-- **A problem that is taken down** is one to complain about. -/
theorem not_quiet_report (kind : DiagnosticKind) (severity : Severity)
    (message : String) (span : Span) :
    ¬(s.report root kind severity message span).Quiet root := by
  intro h
  have hclean := (report_clean h.toClean).1
  have hproblems := report_problems root s kind severity message span
    hclean.going
  have hroom : ¬root.options.maxDiagnostics ≤ s.problems.length :=
    Nat.not_le.2 hclean.room
  unfold Options.added at hproblems
  rw [h.none, if_neg hroom] at hproblems
  exact List.append_ne_nil_of_right_ne_nil _ (List.cons_ne_nil _ _)
    hproblems.symm

end State

/-! ## Tokens that differ in their line and column -/

namespace Token.Agrees

variable {t t' : Token} (h : t.Agrees t')

include h

/-- **A token at another line and column** is the same to a production. -/
theorem kind_eq : t'.kind = t.kind := by rw [h]

theorem text_eq : t'.text = t.text := by rw [h]

theorem span_eq : t'.span = t.span := by rw [h]

theorem error_eq : t'.error = t.error := by rw [h]

/-- It is at the end of the text if the other one is. -/
theorem isEof_eq : t'.isEof = t.isEof := by rw [h]; rfl

/-- It is the same mark, if it is one. -/
theorem isPunctuator_eq (p : Punctuator) :
    t'.isPunctuator p = t.isPunctuator p := by rw [h]; rfl

theorem isKeyword_eq (k : Keyword) :
    t'.isKeyword k = t.isKeyword k := by rw [h]; rfl

/-- It closes the same lists. -/
theorem closes_eq (listEnd : ListEnd) :
    t'.closes listEnd = t.closes listEnd := by rw [h]; rfl

end Token.Agrees

/-! ## Replays -/

open State in
/-- **A parse of another text that replays runs of a parse.** -/
structure Replay (root : Context) where
  /-- The other text. -/
  other : List Char
  /-- Where it may differ in whether a line break stands there. -/
  spots : Set Nat
  /-- Whether a state is one of a run that ends well. -/
  Fits : State → Prop
  /-- Whether two states stand at the same place. -/
  Beside : State → State → Prop
  /-- Whether two scanners will find the same tokens. -/
  Even : Scanner → Scanner → Prop
  /-- A run that ends well has begun so. -/
  fits_of_acts {s t : State} (h : Acts root s t) (ht : Fits t) : Fits s
  /-- There is nothing to complain about in it. -/
  quiet {s : State} (h : Fits s) : s.Quiet root
  /-- The other text is as long. -/
  byteLength_eq : byteLength other = byteLength root.source
  /-- At the same place the same token is current. -/
  current {s s' : State} (h : Beside s s') : s.current.Agrees s'.current
  /-- The last token read ends at the same place. -/
  consumedTo_eq {s s' : State} (h : Beside s s') :
    s'.consumedTo = s.consumedTo
  /-- Neither parse has ended. -/
  going {s s' : State} (h : Beside s s') : s'.aborted = false
  /-- A line break stands before the one token if one stands before the
  other, unless the texts differ there. -/
  newlineBefore_eq {s s' : State} (h : Beside s s')
    (hspots : ∀ q ∈ spots, q ∉ s.gap) : s'.newlineBefore = s.newlineBefore
  /-- The same decision is taken down in both. -/
  record {s s' : State} (h : Beside s s') (event : Event) :
    Beside { s with events := s.events.push event }
      { s' with events := s'.events.push event }
  /-- It does not matter how many levels have been entered. -/
  atDepth {s s' : State} (h : Beside s s') (depth depth' : Option Nat) :
    Beside (s.atDepth depth) (s'.atDepth depth')
  /-- **A token is read in both texts.** -/
  bump {s s' : State} (h : Beside s s') (heof : s.current.isEof = false)
    (hfits : Fits (s.bump root)) :
    Beside (s.bump root) (s'.bump { root with source := other })
  /-- **A slash is read again** in both texts. -/
  rescan {s s' : State} (h : Beside s s')
    (hslash : s.current.kind = .punctuator .slash
      ∨ s.current.kind = .punctuator .slashEq)
    (hfits : Fits (s.rescanRegex root)) :
    Beside (s.rescanRegex root)
      (s'.rescanRegex { root with source := other })
  /-- At the same place the same tokens come next, unless the current one is
  a slash, which may be read again. -/
  even {s s' : State} (h : Beside s s') (hfits : Fits s)
    (hslash : s.current.isSlash = false) : Even s.scanner s'.scanner
  /-- The next token is the same, and those behind it are if it is no
  slash. -/
  next {x x' : Scanner} (h : Even x x') :
    x.nextSignificant.token.Agrees x'.nextSignificant.token
      ∧ (x.nextSignificant.token.isSlash = false →
        x.nextSignificant.token.isEof = false →
        Even x.nextSignificant.scanner x'.nextSignificant.scanner)

namespace Replay

variable {root ctx : Context}

/-- **Nothing is replayed.** All runs in which there is nothing to complain
about end well. -/
def alone (root : Context) : Replay root where
  other := root.source
  spots := ∅
  Fits s := s.Quiet root
  Beside _ _ := False
  Even _ _ := False
  fits_of_acts h ht := State.Acts.quiet h ht
  quiet h := h
  byteLength_eq := rfl
  current h := h.elim
  consumedTo_eq h := h.elim
  going h := h.elim
  newlineBefore_eq h := h.elim
  record h := h.elim
  atDepth h := h.elim
  bump h := h.elim
  rescan h := h.elim
  even h := h.elim
  next h := h.elim

variable (R : Replay root) {s s' t : State} {x x' : Scanner}

/-- **No line break was asked for at a spot.** -/
def Clear (K : Set Mark) : Prop := ∀ q ∈ R.spots, Mark.asked q ∉ K

/-- What is clear of marks is clear of fewer. -/
theorem Clear.mono {R : Replay root} {K K' : Set Mark} (h : R.Clear K')
    (hK : K ⊆ K') : R.Clear K :=
  fun q hq hmem => h q hq (hK hmem)

/-- A context of the one parse as a context of the other. -/
def reflect (ctx : Context) : Context := { ctx with source := R.other }

/-- The context the other parse begins in. -/
abbrev image : Context := R.reflect root

/-- A context of the parse is one of the replay, with the other text. -/
theorem within_image (h : root.Within ctx) :
    R.image.Within (R.reflect ctx) :=
  ⟨rfl, h.turns_eq, h.options_eq, h.table_eq⟩

/-! ## Looking ahead -/

section Ahead

variable {R}

/-- What is behind the next token is the same, unless that may be read
again or is the last one. -/
theorem behind (h : R.Even x x') {kind : TokenKind}
    (hkind : x.nextSignificant.token.kind = kind)
    (hne : kind ≠ .eof ∧ kind ≠ .punctuator .slash
      ∧ kind ≠ .punctuator .slashEq) :
    R.Even x.nextSignificant.scanner x'.nextSignificant.scanner :=
  (R.next h).2 (Parse.isSlash_eq_false hkind hne.2.1 hne.2.2)
    (Action.isEof_eq_false hkind hne.1)

/-- The same mark is behind the next token, if that is a name. -/
theorem peekSecond_eq (h : R.Even x x')
    (hname : x.peek.kind = .identifier) (p : Punctuator) :
    x'.peekSecond.isPunctuator p = x.peekSecond.isPunctuator p := by
  have heof : x.nextSignificant.token.isEof = false :=
    Action.isEof_eq_false hname (by decide)
  have heof' : x'.nextSignificant.token.isEof = false :=
    (R.next h).1.isEof_eq.trans heof
  unfold Scanner.peekSecond
  dsimp only
  rw [if_neg (Bool.eq_false_iff.1 heof'),
    if_neg (Bool.eq_false_iff.1 heof)]
  exact (R.next (behind h hname (by decide))).1.isPunctuator_eq p

/-- Looking ahead from either place shows the same. -/
theorem arrowFollows_eq (h : R.Even x x') :
    x'.arrowFollows = x.arrowFollows :=
  (R.next h).1.isPunctuator_eq .arrow

theorem namesAndArrowFollow_eq (h : R.Even x x') :
    x'.namesAndArrowFollow = x.namesAndArrowFollow := by
  -- Along the names and commas, which are no slashes.
  fun_induction Scanner.namesAndArrowFollow x generalizing x' with
  | case1 x name hname mark hcomma =>
    rename_i ih
    have hmark := behind h hname (by decide)
    rw [Scanner.namesAndArrowFollow.eq_def x']
    dsimp only
    rw [if_pos ((R.next h).1.kind_eq.trans hname),
      if_pos (((R.next hmark).1.isPunctuator_eq .comma).trans hcomma)]
    exact ih (behind hmark (of_decide_eq_true hcomma) (by decide))
  | case2 x name hname mark =>
    rename_i hcomma
    have hmark := behind h hname (by decide)
    rw [Scanner.namesAndArrowFollow.eq_def x']
    dsimp only
    rw [if_pos ((R.next h).1.kind_eq.trans hname),
      if_neg (fun hcomma' => hcomma
        (((R.next hmark).1.isPunctuator_eq .comma).symm.trans hcomma')),
      (R.next hmark).1.isPunctuator_eq .rParen]
    cases hclose : mark.token.isPunctuator .rParen with
    | false => rfl
    | true =>
      exact congrArg (true && ·) (arrowFollows_eq
        (behind hmark (of_decide_eq_true hclose) (by decide)))
  | case3 x name =>
    rename_i hname
    rw [Scanner.namesAndArrowFollow.eq_def x']
    dsimp only
    exact if_neg (fun h' => hname ((R.next h).1.kind_eq.symm.trans h'))

/-- **A parameter list is ahead in both texts**, or in neither. -/
theorem parameterListFollows_eq (h : R.Even x x') :
    x'.parameterListFollows = x.parameterListFollows := by
  unfold Scanner.parameterListFollows
  dsimp only
  rw [(R.next h).1.isPunctuator_eq .rParen, namesAndArrowFollow_eq h]
  split
  · rename_i hclose
    exact arrowFollows_eq
      (behind h (of_decide_eq_true hclose) (by decide))
  · rfl

end Ahead

end Replay

end ScriptTree
