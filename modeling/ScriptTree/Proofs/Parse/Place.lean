import ScriptTree.Proofs.Parse.Step
import ScriptTree.Proofs.Token.Front
import ScriptTree.Proofs.Token.Passing

/-!
# Where a parse stands

Between any two steps of a parse its state is a **good** one: the scanner
stands right behind the current token, the comments found so far stand in
a row, and whatever lies between the last token read and the current one
is filler or a comment. A step keeps it so
(`State.Step.still_or_past`), whichever production takes it.

Two places matter to the productions: where the current token begins,
and where the last token read ends. A run takes neither of them back, and
it reads no token without passing the place where it began
(`State.Leads.still_or_past`). This is why the span of what a production
read is never empty.
-/

namespace ScriptTree

/-- **A comment in its place.** -/
def Comment.Occupies (source : List Char) (c : Comment) (b e : Nat) :
    Prop :=
  c.span = ⟨b, e⟩ ∧ c.span.Fits source

namespace State

/-- Where the current token begins. -/
def here (s : State) : Nat := s.current.span.start

/-- The spans of the comments found so far. -/
def commentSpans (s : State) : List Span :=
  s.comments.toList.map Comment.span

/-- **The current token in its text**: the piece `text` behind `front`,
with the scanner behind it. -/
structure Faces (s : State) (front text : List Char) : Prop where
  /-- The token is the piece. -/
  spells : s.current.Spells front text
  /-- The scanner stands behind it. -/
  at_behind : s.scanner.At (front ++ text)
  /-- Only the end of the text is empty. -/
  text_eq_nil_iff : text = [] ↔ s.current.isEof = true
  /-- The end of the text is where nothing is left. -/
  rest_of_eof : s.current.isEof = true → s.scanner.rest = []
  /-- The token is as the scanner makes it. -/
  regular : s.current.Regular
  /-- A regular expression is cut off from the text. -/
  cutsRegex : s.current.kind = .regex →
    s.current.CutsRegex s.scanner.rest

/-- **A state between two steps** of a parse that began in the context
`root`. -/
structure Good (root : Context) (s : State) : Prop where
  /-- The scanner reads the text of the parse. -/
  source_eq : s.scanner.source = root.source
  /-- The current token is a piece of it. -/
  faces : ∃ front text, s.Faces front text
  /-- The last token read ends between two characters. -/
  isCut : IsCut root.source s.consumedTo
  /-- It ends before the current one begins. -/
  consumedTo_le : s.consumedTo ≤ s.here
  /-- The comments stand in a row before the current token. -/
  comments : Row (Comment.Occupies root.source) 0 s.here s.comments.toList
  /-- They cover what lies between the two tokens, if they are kept. -/
  covers : root.options.collectComments = true →
    Covers s.commentSpans root.source s.consumedTo s.here
  /-- A tolerant parse goes on. -/
  aborted_eq : root.options.tolerant = true → s.aborted = false

namespace Faces

variable {s : State} {front text : List Char}

theorem here_eq (h : s.Faces front text) : s.here = byteLength front := by
  unfold here
  rw [h.spells.span_eq]

theorem stop_eq (h : s.Faces front text) :
    s.current.span.stop = byteLength front + byteLength text := by
  rw [h.spells.span_eq]

theorem source_eq {root : Context} (hs : s.Good root)
    (h : s.Faces front text) :
    root.source = front ++ (text ++ s.scanner.rest) := by
  rw [← hs.source_eq, h.at_behind.source_eq, List.append_assoc]

end Faces

namespace Good

variable {root : Context} {s : State}

/-- The current token begins between two characters. -/
theorem isCut_here (hs : s.Good root) : IsCut root.source s.here := by
  obtain ⟨front, text, h⟩ := hs.faces
  rw [h.here_eq, h.source_eq hs]
  exact isCut_append _ _

/-- **The current token in its place**, unless it is the end of the
text. -/
theorem current_occupies (hs : s.Good root)
    (heof : s.current.isEof = false) :
    s.current.Occupies root.source s.here s.current.span.stop := by
  obtain ⟨front, text, h⟩ := hs.faces
  have hne : text ≠ [] := by
    intro h0
    rw [h.text_eq_nil_iff.1 h0] at heof
    exact Bool.noConfusion heof
  rw [h.here_eq, h.stop_eq]
  exact h.spells.occupies (h.source_eq hs) hne

/-- A token that is read is not empty. -/
theorem here_lt_stop (hs : s.Good root) (heof : s.current.isEof = false) :
    s.here < s.current.span.stop :=
  (hs.current_occupies heof).2.1.start_lt_stop

/-- **The end of the text is found at its end.** -/
theorem here_of_eof (hs : s.Good root) (heof : s.current.isEof = true) :
    s.here = byteLength root.source := by
  obtain ⟨front, text, h⟩ := hs.faces
  rw [h.here_eq, h.source_eq hs, h.text_eq_nil_iff.2 heof,
    h.rest_of_eof heof]
  simp

end Good

/-! ## Comments that are kept -/

/-- Comments stand where their tokens stood. -/
theorem keptComments_row {source : List Char} {extras : List Token}
    {lo hi : Nat} (options : Options)
    (h : Row (Token.Occupies source) lo hi extras) :
    Row (Comment.Occupies source) lo hi (keptComments options extras) := by
  unfold keptComments
  split
  · rw [List.map_eq_flatMap]
    refine (h.filter _).flatMap (fun x b e hbe hx => ?_)
    exact .single (R := Comment.Occupies source) (x := commentOf x)
      ⟨hx.1, hx.2.1⟩ (Nat.le_refl b) hbe (Nat.le_refl e)
  · exact .nil

/-- None is left out where they are kept. -/
theorem commentSpans_subset {options : Options} {extras : List Token}
    (hkeep : options.collectComments = true) :
    ScriptTree.commentSpans extras
      ⊆ (keptComments options extras).map Comment.span := by
  intro x hx
  obtain ⟨y, hy, rfl⟩ := List.mem_map.1 hx
  obtain ⟨hy, hkind⟩ := List.mem_filter.1 hy
  refine List.mem_map.2 ⟨commentOf y, ?_, rfl⟩
  rw [keptComments, if_pos hkeep]
  refine List.mem_map.2 ⟨y, List.mem_filter.2 ⟨hy, ?_⟩, rfl⟩
  rw [of_decide_eq_true hkind]
  rfl

/-! ## Steps between good states -/

/-- **Reading a token** leads to a good state, and even the first one of a
text does: the scanner need only stand where the token before ends. -/
theorem bump_good {root : Context} {s : State} {front : List Char}
    (hsource : s.scanner.source = root.source)
    (hat : s.scanner.At front)
    (hstop : s.current.span.stop = byteLength front)
    (hcomments : Row (Comment.Occupies root.source) 0 (byteLength front)
      s.comments.toList)
    (haborted : root.options.tolerant = true → s.aborted = false) :
    (s.bump root).Good root := by
  obtain ⟨t, ht, heq⟩ := bump_eq root s
  obtain ⟨front', text, h⟩ := s.scanner.nextSignificant_finds hat
  have hfaces : (s.bump root).Faces front' text := by
    rw [heq]
    exact ⟨h.spells, h.at_behind, h.text_eq_nil_iff, h.rest_of_eof,
      Scanner.nextSignificant_regular _, Scanner.nextSignificant_cutsRegex _⟩
  have hcons : (s.bump root).consumedTo = byteLength front := by
    rw [heq]
    exact hstop
  have hlist : (s.bump root).comments.toList = s.comments.toList
      ++ keptComments root.options s.scanner.nextSignificant.extras := by
    rw [heq]
    simp
  -- From here on the state is known by what the scanner found.
  refine ⟨?_, ⟨front', text, hfaces⟩, ?_, ?_, ?_, ?_, ?_⟩
  · rw [heq]
    exact h.source_eq.trans hsource
  · rw [hcons, ← hsource, hat.source_eq]
    exact isCut_append _ _
  · rw [hcons, hfaces.here_eq]
    exact h.le
  · have hrow := h.row
    rw [hsource] at hrow
    rw [hlist, hfaces.here_eq]
    exact hcomments.append (keptComments_row root.options hrow)
      (Nat.zero_le _) (Nat.le_refl _) h.le
  · intro hkeep
    rw [hcons, hfaces.here_eq, ← hsource]
    refine h.covers.mono (fun x hx => ?_)
    rw [commentSpans, hlist, List.map_append]
    exact List.mem_append_right _ (commentSpans_subset hkeep hx)
  · intro htolerant
    rw [heq]
    exact (ht.aborted_eq htolerant).trans (haborted htolerant)

/-- The state at the front of a script is a good one. -/
theorem initial_good (root : Context) : (initial root).Good root :=
  bump_good rfl (Scanner.ofSource_at root.source) rfl .nil
    (fun _ => rfl)

/-- Nothing has been read at the front of a script. -/
theorem initial_consumedTo (root : Context) :
    (initial root).consumedTo = 0 := by
  obtain ⟨t, _, heq⟩ := bump_eq root (blank root.source)
  rw [initial, heq]
  rfl

/-- What the problems and the decisions of a state are does not
matter. -/
theorem Good.congr {root : Context} {s t : State} (hs : s.Good root)
    (hscanner : t.scanner = s.scanner) (hcurrent : t.current = s.current)
    (hconsumed : t.consumedTo = s.consumedTo)
    (hcomments : t.comments = s.comments)
    (haborted : root.options.tolerant = true → t.aborted = s.aborted) :
    t.Good root := by
  have hhere : t.here = s.here := by rw [here, hcurrent]; rfl
  refine ⟨?_, ?_, ?_, ?_, ?_, ?_, ?_⟩
  · rw [hscanner]
    exact hs.source_eq
  · obtain ⟨front, text, hf⟩ := hs.faces
    refine ⟨front, text, ?_⟩
    constructor
    · rw [hcurrent]
      exact hf.spells
    · rw [hscanner]
      exact hf.at_behind
    · rw [hcurrent]
      exact hf.text_eq_nil_iff
    · rw [hcurrent, hscanner]
      exact hf.rest_of_eof
    · rw [hcurrent]
      exact hf.regular
    · rw [hcurrent, hscanner]
      exact hf.cutsRegex
  · rw [hconsumed]
    exact hs.isCut
  · rw [hhere, hconsumed]
    exact hs.consumedTo_le
  · rw [hhere, hcomments]
    exact hs.comments
  · rw [commentSpans, hcomments, hconsumed, hhere]
    exact hs.covers
  · exact fun ht => (haborted ht).trans (hs.aborted_eq ht)

theorem Reported.good {root : Context} {s t : State}
    (h : s.Reported root t) (hs : s.Good root) : t.Good root := by
  refine hs.congr ?_ ?_ ?_ ?_ h.aborted_eq <;> rw [h.eq]

/-- A slash in its text. -/
theorem Faces.exists_of_slash {s : State} {front text : List Char}
    (h : s.Faces front text) (hslash : s.current.kind = .punctuator .slash
      ∨ s.current.kind = .punctuator .slashEq) :
    ∃ cs, text = '/' :: cs := by
  have htext : text = s.current.text.toList := by
    rw [h.spells.text_eq, String.toList_ofList]
  rcases hslash with hk | hk
  · exact ⟨[], by rw [htext, h.regular.text_eq _ hk]; rfl⟩
  · exact ⟨['='], by rw [htext, h.regular.text_eq _ hk]; rfl⟩

/-- Reading a slash as a regular expression leads to a good state, in which
the same place is current. -/
theorem rescanRegex_good {root : Context} {s : State} (hs : s.Good root)
    (hslash : s.current.kind = .punctuator .slash
      ∨ s.current.kind = .punctuator .slashEq) :
    (s.rescanRegex root).Good root ∧ (s.rescanRegex root).here = s.here
      ∧ (s.rescanRegex root).current.kind = .regex := by
  obtain ⟨t, ht, heq⟩ := rescanRegex_eq root s
  obtain ⟨front, text, h⟩ := hs.faces
  obtain ⟨cs, rfl⟩ := h.exists_of_slash hslash
  have hsource : s.scanner.source
      = front ++ ('/' :: cs ++ s.scanner.rest) := by
    rw [hs.source_eq, h.source_eq hs]
  obtain ⟨text', hne', hspells, hat, hsame⟩ :=
    Scanner.rescanRegex_reads hsource h.spells (List.cons_ne_nil _ _)
  have hkind : (s.rescanRegex root).current.kind = .regex := by
    rw [heq]
    simp [Scanner.rescanRegex]
  have heof' : (s.rescanRegex root).current.isEof = false := by
    simp [Token.isEof, hkind]
  have hfaces : (s.rescanRegex root).Faces front text' := by
    refine ⟨?_, ?_, ?_, ?_, ?_, ?_⟩
    · rw [heq]
      exact hspells
    · rw [heq]
      exact hat
    · exact iff_of_false hne' (by simp [heof'])
    · simp [heof']
    · exact ⟨fun h => by simp [hkind, TokenKind.mayFail] at h,
        fun _ h => by simp [hkind] at h⟩
    · intro _
      rw [heq]
      exact Scanner.rescanRegex_cutsRegex hsource h.here_eq
  have hhere : (s.rescanRegex root).here = s.here := by
    rw [hfaces.here_eq, h.here_eq]
  -- Nothing but the scanner and the current token has changed.
  have ht' : (s.rescanRegex root).consumedTo = s.consumedTo
      ∧ (s.rescanRegex root).comments = s.comments := by
    rw [heq, ht.eq]
    exact ⟨rfl, rfl⟩
  refine ⟨⟨?_, ⟨front, text', hfaces⟩, ?_, ?_, ?_, ?_, ?_⟩, hhere, hkind⟩
  · rw [heq]
    exact hsame.trans hs.source_eq
  · rw [ht'.1]
    exact hs.isCut
  · rw [ht'.1, hhere]
    exact hs.consumedTo_le
  · rw [ht'.2, hhere]
    exact hs.comments
  · rw [commentSpans, ht'.2, ht'.1, hhere]
    exact hs.covers
  · intro htolerant
    rw [heq]
    exact (ht.aborted_eq htolerant).trans (hs.aborted_eq htolerant)

/-- **What a step does to the two places**: it leaves them where they
are, or the current token is read. -/
theorem Step.still_or_past {root : Context} {s t : State}
    (h : Step root s t) (hs : s.Good root) :
    t.Good root ∧ s.comments.toList <+: t.comments.toList
      ∧ (t.consumedTo = s.consumedTo ∧ t.here = s.here
        ∨ t.consumedTo = s.current.span.stop ∧ s.here < t.consumedTo) := by
  cases h with
  | bump heof =>
    obtain ⟨t, ht, heq⟩ := bump_eq root s
    obtain ⟨front, text, h⟩ := hs.faces
    have hstop := hs.here_lt_stop heof
    have hgood : (s.bump root).Good root := by
      refine bump_good hs.source_eq h.at_behind ?_ ?_ hs.aborted_eq
      · rw [h.stop_eq, byteLength_append]
      · rw [byteLength_append, ← h.stop_eq]
        exact hs.comments.mono (Nat.le_refl 0) (Nat.le_of_lt hstop)
    have hcons : (s.bump root).consumedTo = s.current.span.stop := by
      rw [heq]
    refine ⟨hgood, ?_, .inr ⟨hcons, by rwa [hcons]⟩⟩
    rw [heq]
    simp
  | rescan hslash =>
    obtain ⟨t, ht, heq⟩ := rescanRegex_eq root s
    obtain ⟨hgood, hhere, _⟩ := rescanRegex_good hs hslash
    have hcomments : (s.rescanRegex root).comments = s.comments := by
      rw [heq, ht.eq]
    refine ⟨hgood, hcomments ▸ List.prefix_rfl, .inl ⟨?_, hhere⟩⟩
    rw [heq, ht.eq]
  | report kind severity message span =>
    have hr := report_reported root kind severity message span s
    have hcomments :
        (s.report root kind severity message span).comments = s.comments := by
      rw [hr.eq]
    refine ⟨hr.good hs, hcomments ▸ List.prefix_rfl, .inl ⟨?_, ?_⟩⟩
    · rw [hr.eq]
    · rw [hr.eq]
      rfl
  | record event =>
    exact ⟨hs.congr rfl rfl rfl rfl (fun _ => rfl), List.prefix_rfl,
      .inl ⟨rfl, rfl⟩⟩

theorem Good.atDepth {root : Context} {s : State} (hs : s.Good root)
    (depth : Option Nat) : (s.atDepth depth).Good root :=
  hs.congr rfl rfl rfl rfl (fun _ => rfl)

/-! ## Runs -/

/-- **A run from one good state to another.** -/
structure Leads (root : Context) (s t : State) : Prop where
  /-- It starts in a good state. -/
  good_start : s.Good root
  /-- It takes steps. -/
  steps : Steps root s t

namespace Leads

variable {root : Context} {s t u : State}

theorem refl (hs : s.Good root) : s.Leads root s := ⟨hs, .refl⟩

theorem trans (h₁ : s.Leads root t) (h₂ : t.Leads root u) :
    s.Leads root u :=
  ⟨h₁.good_start, h₁.steps.trans h₂.steps⟩

theorem step (hs : s.Good root) (h : Step root s t) : s.Leads root t :=
  ⟨hs, .single h⟩

/-- **A run takes nothing back**: neither the place where the current
token begins nor the one where the last token read ends nor a comment. -/
theorem forward (h : s.Leads root t) :
    t.Good root ∧ s.here ≤ t.here ∧ s.consumedTo ≤ t.consumedTo
      ∧ s.comments.toList <+: t.comments.toList := by
  obtain ⟨hs, hsteps⟩ := h
  -- Both places move because a token that is read ends behind the one and
  -- before the other.
  induction hsteps with
  | refl => exact ⟨hs, Nat.le_refl _, Nat.le_refl _, List.prefix_rfl⟩
  | tail _ step ih =>
    obtain ⟨hgood, hhere, hcons, hcomments⟩ := ih
    obtain ⟨hgood', hcomments', hplace⟩ := step.still_or_past hgood
    have h₁ := hgood.consumedTo_le
    have h₂ := hgood'.consumedTo_le
    exact ⟨hgood', by omega, by omega, hcomments.trans hcomments'⟩

theorem good (h : s.Leads root t) : t.Good root := h.forward.1

theorem here_le (h : s.Leads root t) : s.here ≤ t.here := h.forward.2.1

theorem consumedTo_le (h : s.Leads root t) :
    s.consumedTo ≤ t.consumedTo := h.forward.2.2.1

theorem comments_prefix (h : s.Leads root t) :
    s.comments.toList <+: t.comments.toList := h.forward.2.2.2

/-- **Nothing is read, or the token that was current is.** -/
theorem still_or_past (h : s.Leads root t) :
    t.consumedTo = s.consumedTo ∧ t.here = s.here
      ∨ s.here < t.consumedTo := by
  have hs := h.good_start
  obtain ⟨_, hsteps⟩ := h
  induction hsteps with
  | refl => exact .inl ⟨rfl, rfl⟩
  | @tail t u hst step ih =>
    obtain ⟨hgood, hhere, _⟩ := Leads.forward ⟨hs, hst⟩
    obtain ⟨_, _, hplace⟩ := step.still_or_past hgood
    omega

/-- The place where a run starts is current in the end, or has been
passed. -/
theorem here_eq_or_past (h : s.Leads root t) :
    s.here = t.here ∨ s.here < t.consumedTo :=
  h.still_or_past.imp_left (fun h => h.2.symm)

theorem atDepth (h : s.Leads root t) (depth : Option Nat) :
    (s.atDepth depth).Leads root (t.atDepth depth) :=
  ⟨h.good_start.atDepth depth, h.steps.atDepth⟩

/-- **A run inside a level** is one outside of it. -/
theorem leave (hs : s.Good root) (h : s.enter.Leads root t) :
    s.Leads root t.leave :=
  ⟨hs, h.steps.leave⟩

/-- What was read is behind the place where the run started. -/
theorem past_trans (h₁ : s.Leads root t) (h₂ : t.Leads root u)
    (h : s.here < t.consumedTo ∨ t.here < u.consumedTo) :
    s.here < u.consumedTo := by
  have hhere := h₁.here_le
  have hcons := h₂.consumedTo_le
  omega

end Leads

end State

end ScriptTree
