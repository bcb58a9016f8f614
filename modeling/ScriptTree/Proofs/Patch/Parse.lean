import ScriptTree.Proofs.Break.Ending
import ScriptTree.Proofs.Patch.Scan

/-!
# The parse of a text that is patched

Where patches leave alone all that a parse reads – its tokens, with those
that it reads again, and its comments – the parse of the patched text replays
the one of the text (`Patches.Unseen.replay`), as far as no line break is
asked for where there is a spot.

What is known of the tokens and the comments is known of those that are
found in the end. So the runs that are replayed are those that lead there
(`State.Acts.exists_known`, `State.Acts.comments_prefix`).
-/

namespace ScriptTree

open State

namespace State

variable {root : Context} {s t : State}

/-- **The comments that are passed** are taken down, if they are kept. -/
theorem bump_comments (hkeep : root.options.collectComments = true) :
    ∀ y ∈ s.scanner.nextSignificant.extras, y.kind ≠ .lineBreak →
      commentOf y ∈ (s.bump root).comments := by
  intro y hy hkind
  obtain ⟨u, _, heq⟩ := bump_eq root s
  rw [heq]
  refine Array.mem_append.2 (.inr (List.mem_toArray.2 ?_))
  rw [keptComments, if_pos hkeep]
  exact List.mem_map_of_mem
    (List.mem_filter.2 ⟨hy, decide_eq_true hkind⟩)

/-- **The next token is read** in a run that goes on to the end of the text,
if the current one cannot be read again. -/
theorem Acts.exists_bump (h : Acts root s t) (ht : t.current.isEof = true)
    (hs : s.current.isEof = false) (hslash : s.current.isSlash = false) :
    ∃ u, Acts root s u ∧ u.scanner = s.scanner ∧ u.current = s.current
      ∧ Acts root (u.bump root) t := by
  induction h using Relation.ReflTransGen.head_induction_on with
  | refl => exact Bool.noConfusion (hs.symm.trans ht)
  | @head s v hact hrest ih =>
    have hsame : v.scanner = s.scanner → v.current = s.current →
        ∃ u, Acts root s u ∧ u.scanner = s.scanner ∧ u.current = s.current
          ∧ Acts root (u.bump root) t := by
      intro hscanner hcurrent
      obtain ⟨u, hvu, hu, hu', hut⟩ :=
        ih (hcurrent ▸ hs) (hcurrent ▸ hslash)
      exact ⟨u, .head hact hvu, hu.trans hscanner, hu'.trans hcurrent, hut⟩
    cases hact with
    | bump => exact ⟨s, .refl, rfl, rfl, hrest⟩
    | rescan slash =>
      exact absurd (Token.isSlash_iff.2 slash) (Bool.eq_false_iff.1 hslash)
    | @report kind severity message span =>
      refine hsame ?_ ?_ <;>
        rw [(report_reported root kind severity message span s).eq]
    | record | level => exact hsame rfl rfl

end State

/-- The context of the parse of a text with the default settings. -/
abbrev Context.standard (text : List Char) : Context :=
  .ofSource text .standard .standard

/-- **A place between the tokens** that are read of a text and between its
comments. -/
structure LiesBetween (text : List Char) (q : Nat) : Prop where
  /-- It is in none of the tokens. -/
  token : ∀ t ∈ readTokens text, q < t.span.start ∨ t.span.stop ≤ q
  /-- It is in none of the comments. -/
  comment : ∀ c ∈ (parse text).program.comments,
    q < c.span.start ∨ c.span.stop ≤ q

/-- **Patches that a parse does not see**: there is nothing to complain about
in the text, and they leave its tokens and its comments alone. -/
structure Patches.Unseen (X : Patches) (text other : List Char) : Prop where
  /-- There is nothing to complain about. -/
  quiet : (parse text).diagnostics = []
  /-- The text is patched to be the other. -/
  patched : Patched X 0 text other
  /-- No patch is empty. -/
  pos : ∀ p ∈ X.spans, p.start < p.stop
  /-- No patch lies in a token that is read. -/
  token : ∀ t ∈ readTokens text, ∀ p ∈ X.spans,
    t.span.stop ≤ p.start ∨ p.stop ≤ t.span.start
  /-- No comment is put right behind a slash. -/
  slash : X.filling = .spaces → ∀ t ∈ readTokens text,
    t.kind = .punctuator .slash → ∀ p ∈ X.spans, p.start ≠ t.span.stop
  /-- Comments are left to be comments. -/
  comment : ∀ c ∈ (parse text).program.comments, ∀ p ∈ X.spans,
    p = c.span ∨ c.span.stop ≤ p.start ∨ p.stop ≤ c.span.start
      ∨ c.span.start ≤ p.start ∧ p.stop ≤ c.span.stop
        ∧ IsComment (c.span.slice other) []
  /-- No line break is patched that a comment goes on to. -/
  line : X.filling = .lineBreak → ∀ c ∈ (parse text).program.comments,
    c.kind = .line → ∀ p ∈ X.spans, p.start ≠ c.span.stop
  /-- Between the tokens and the comments line breaks are of account. -/
  breaks : ∀ q, LiesBetween text q → q ∈ X.breaks

/-- **A state on the way to the end** of the parse of a text. -/
def LeadsToEnd (text : List Char) (s : State) : Prop :=
  Acts (.standard text) s (runScript text .standard .standard).2

/-- **What a token is read past** lies between the tokens and the comments,
unless it is one of the comments that are passed. -/
theorem LeadsToEnd.liesBetween {text : List Char} {s : State}
    (hends : LeadsToEnd text (s.bump (.standard text)))
    (hreached : (s.bump (.standard text)).Reached (.standard text))
    (hcomments : ∀ c ∈ s.comments, c.span.stop ≤ s.current.span.stop)
    (q : Nat) (hle : s.current.span.stop ≤ q)
    (hlt : q < (s.bump (.standard text)).here)
    (hextras : ∀ y ∈ s.scanner.nextSignificant.extras,
      y.kind ≠ .lineBreak → q < y.span.start ∨ y.span.stop ≤ q) :
    LiesBetween text q := by
  refine ⟨fun t ht => ?_, fun c hc => ?_⟩
  · obtain ⟨behind, now, hnow⟩ := Acts.exists_known hends hreached.good
    have hmem := List.mem_reverse.1 (List.mem_of_mem_tail ht)
    rw [hnow.known_eq] at hmem
    rcases List.mem_append.1 hmem with hmem | hmem
    · exact .inl (Nat.lt_trans hlt (hnow.behind t hmem))
    · rcases List.mem_cons.1 hmem with rfl | hmem
      · exact .inl (hnow.start_eq ▸ hlt)
      · have hstop := hreached.sound.taken_le t hmem
        rw [bump_consumedTo] at hstop
        exact .inr (Nat.le_trans hstop hle)
  · obtain ⟨u, _, heq⟩ := bump_eq (.standard text) s
    rcases Acts.comments hends hreached.good c (Array.mem_toList_iff.1 hc)
      with hc | hstart
    · rw [heq] at hc
      rcases Array.mem_append.1 hc with hc | hc
      · exact .inr (Nat.le_trans (hcomments c hc) hle)
      · obtain ⟨y, hy, rfl⟩ := List.mem_map.1 (List.mem_toArray.1 hc)
        obtain ⟨hy, hkind⟩ := List.mem_filter.1 hy
        exact hextras y hy (of_decide_eq_true hkind)
    · exact .inl (Nat.lt_trans hlt hstart)

namespace Patches

/-- **States at the same place** in the parse of a text and in that of the
patched text. -/
structure Beside (X : Patches) (text other : List Char) (s s' : State) :
    Prop where
  /-- The one is reached. -/
  reached : s.Reached (.standard text)
  /-- So is the other. -/
  reached' : s'.Reached (.standard other)
  /-- The same token is current. -/
  current : s.current.Agrees s'.current
  /-- The last token read ends at the same place. -/
  consumedTo_eq : s'.consumedTo = s.consumedTo
  /-- A line break stands before both or neither, unless there is a spot. -/
  newlineBefore_eq : (∀ q ∈ X.spots, q ∉ s.gap) →
    s'.newlineBefore = s.newlineBefore
  /-- The scanners are at the same place. -/
  near : s.scanner.Near X s'.scanner
  /-- They remember the same, unless the text ends there. -/
  breakEmitted_eq : s.current.isEof = false →
    s'.scanner.breakEmitted = s.scanner.breakEmitted
  /-- There is nothing to complain about in the other text. -/
  none : s'.problems = []

/-- **Scanners that will find the same tokens**: those of states at the same
place on the way to the end, where the current token is no slash. -/
structure Even (X : Patches) (text other : List Char) (s : State)
    (x x' : Scanner) : Prop where
  /-- The state is reached. -/
  reached : s.Reached (.standard text)
  /-- It leads to the end. -/
  leads : LeadsToEnd text s
  /-- The one scanner is its scanner. -/
  scanner_eq : s.scanner = x
  /-- The current token is no slash. -/
  slash : s.current.isSlash = false
  /-- The other scanner is in the other text. -/
  source_eq : x'.source = other
  /-- The scanners are at the same place. -/
  near : x.Near X x'
  /-- They remember the same, unless the text ends there. -/
  breakEmitted_eq : s.current.isEof = false →
    x'.breakEmitted = x.breakEmitted

namespace Unseen

variable {X : Patches} {text other : List Char} (h : X.Unseen text other)
  {s s' t : State} {x x' : Scanner}

include h

/-- **A token that is current** on the way to the end is left alone. If it is
a slash that is read again in the end, it is a part of what it becomes. -/
theorem spares_current (ht : t.Reached (.standard text))
    (hends : LeadsToEnd text t) : t.current.Spares X := by
  obtain ⟨hquiet, -⟩ := runScript_quiet h.quiet
  obtain ⟨behind, now, hnow⟩ := Acts.exists_known hends ht.good
  have hmem : now ∈ (runScript text .standard .standard).2.known := by
    rw [hnow.known_eq]
    exact List.mem_append_right _ List.mem_cons_self
  have hread : now ∈ readTokens text := by
    obtain ⟨taken, htaken⟩ := ht.exists_taken_eq
    rw [readTokens, State.read, hnow.known_eq, htaken]
    simp
  have hclear := (ht.acts hends).sound.clear hquiet.toClean now hmem
  refine ⟨ht.sound.clear (Acts.clean hends hquiet.toClean) _
    List.mem_cons_self, fun p hp => ?_, fun hf hkind p hp hstart => ?_⟩
  · have hapart := h.token now hread p hp
    obtain rfl | ⟨-, hlonger⟩ := hnow.eq_or_regex
    · exact hapart
    · refine hapart.imp (fun hle => ?_) (fun hle => ?_)
      · exact Nat.le_trans (hlonger hclear).le hle
      · rwa [hnow.start_eq] at hle
  · obtain rfl | ⟨-, hlonger⟩ := hnow.eq_or_regex
    · exact h.slash hf _ hread hkind p hp hstart
    · -- The patch would begin in the regular expression.
      have hpos := h.pos p hp
      have hlt := hlonger hclear
      have hle := ht.good.here_le_stop
      rcases h.token now hread p hp with hapart | hapart
      · omega
      · rw [hnow.start_eq] at hapart
        omega

/-- **The comments that are passed** on the way to the end are left to be
comments. -/
theorem outlasts_extras
    (hreached : (s.bump (.standard text)).Reached (.standard text))
    (hends : LeadsToEnd text (s.bump (.standard text))) :
    ∀ y ∈ s.scanner.nextSignificant.extras, y.kind ≠ .lineBreak →
      y.Outlasts X other := by
  intro y hy hkind
  obtain ⟨hquiet, -⟩ := runScript_quiet h.quiet
  have hmem : commentOf y ∈ (parse text).program.comments := by
    have hgrown := Acts.comments_prefix hends hreached.good
    exact hgrown.subset
      (Array.mem_toList_iff.2 (bump_comments rfl y hy hkind))
  exact ⟨bump_extras_clear (Acts.clean hends hquiet.toClean) y hy hkind,
    h.comment _ hmem, fun hf hline => h.line hf _ hmem (if_pos hline)⟩

/-- **The next token** is found in both texts. -/
theorem near_nextSignificant (hs : s.Stands (.standard text))
    (hcomments : ∀ c ∈ s.comments, c.span.stop ≤ s.current.span.stop)
    (hreached : (s.bump (.standard text)).Reached (.standard text))
    (hends : LeadsToEnd text (s.bump (.standard text)))
    (hsource : x'.source = other) (hnear : s.scanner.Near X x')
    (hbreak : x'.breakEmitted = s.scanner.breakEmitted) :
    s.scanner.nextSignificant.Near (∀ q ∈ X.spots, q < s.current.span.stop
        ∨ s.scanner.nextSignificant.token.span.start ≤ q)
      X x'.nextSignificant := by
  obtain ⟨before, hat, hstop⟩ := hs.at_stop
  have hoffset : s.scanner.position.offset = s.current.span.stop := by
    rw [hat.position_eq, hstop]
    rfl
  have hspares := h.spares_current hreached hends
  rw [bump_current] at hspares
  have hbetween := hends.liesBetween hreached hcomments
  rw [State.here, bump_current] at hbetween
  rw [← hoffset] at hbetween ⊢
  refine hnear.nextSignificant ?_ hspares (fun q hle hlt hextras =>
    h.breaks q (hbetween q hle hlt hextras)) hbreak
  rw [hsource]
  exact h.outlasts_extras hreached hends

/-- **A token is read in both texts.** -/
theorem bump (hs : s.Stands (.standard text))
    (hcomments : ∀ c ∈ s.comments, c.span.stop ≤ s.current.span.stop)
    (hreached : (s.bump (.standard text)).Reached (.standard text))
    (hreached' : (s'.bump (.standard other)).Reached (.standard other))
    (hends : LeadsToEnd text (s.bump (.standard text)))
    (hcurrent : s.current.Agrees s'.current)
    (hsource : s'.scanner.source = other)
    (hnear : s.scanner.Near X s'.scanner)
    (hbreak : s'.scanner.breakEmitted = s.scanner.breakEmitted)
    (hnone : s'.problems = []) :
    X.Beside text other (s.bump (.standard text))
      (s'.bump (.standard other)) := by
  have hnext := h.near_nextSignificant hs hcomments hreached hends hsource
    hnear hbreak
  refine ⟨hreached, hreached', ?_, ?_, fun hgap => ?_, ?_, ?_, ?_⟩
  · rw [bump_current, bump_current]
    exact hnext.token
  · rw [bump_consumedTo, bump_consumedTo, hcurrent]
  · rw [bump_newlineBefore, bump_newlineBefore]
    refine hnext.any_eq (fun q hq => ?_)
    have hnot := hgap q hq
    unfold gap at hnot
    rwa [bump_consumedTo, State.here, bump_current, Set.mem_ofPred_eq,
      not_and_or, Nat.not_le, Nat.not_lt] at hnot
  · rw [bump_scanner, bump_scanner]
    exact hnext.scanner
  · rw [bump_scanner, bump_scanner, bump_current]
    exact hnext.breakEmitted_eq
  · rw [bump_problems_eq hnext.clear_extras hnext.clear, hnone]

/-- **A slash is read again in both texts.** -/
theorem rescan (hs : X.Beside text other s s')
    (hslash : s.current.kind = .punctuator .slash
      ∨ s.current.kind = .punctuator .slashEq)
    (hends : LeadsToEnd text (s.rescanRegex (.standard text))) :
    X.Beside text other (s.rescanRegex (.standard text))
      (s'.rescanRegex (.standard other)) := by
  have hslash' : s'.current.kind = .punctuator .slash
      ∨ s'.current.kind = .punctuator .slashEq := by
    rwa [hs.current.kind_eq]
  have heof : s.current.isEof = false := by
    rcases hslash with hk | hk <;> simp [Token.isEof, hk]
  have hgood := hs.reached.good
  have hgood' := hs.reached'.good
  have hreached := hs.reached.acts (.single (.rescan hslash))
  have hreached' := hs.reached'.acts (.single (.rescan hslash'))
  obtain ⟨_, hhere, _⟩ := rescanRegex_good hgood hslash
  obtain ⟨before, text₁, hfaces⟩ := hgood.faces
  obtain ⟨before', text₂, hfaces'⟩ := hgood'.faces
  have hne : text₁ ≠ [] := fun h0 => by
    rw [hfaces.text_eq_nil_iff.1 h0] at heof
    exact Bool.noConfusion heof
  obtain ⟨u, hu, heq⟩ := rescanRegex_eq (.standard text) s
  obtain ⟨u', hu', heq'⟩ := rescanRegex_eq (.standard other) s'
  have hspares := h.spares_current hreached hends
  rw [show (s.rescanRegex (.standard text)).current
    = (s.scanner.rescanRegex s.current).1 by rw [heq]] at hspares
  have hpatched : Patched X 0 s.scanner.source s'.scanner.source := by
    rw [hgood.source_eq, hgood'.source_eq]
    exact h.patched
  obtain ⟨hagrees, hnear, hbreak⟩ := hs.near.rescanRegex hpatched
    (hgood.source_eq.trans (hfaces.source_eq hgood)) hne
    (hgood'.source_eq.trans (hfaces'.source_eq hgood')) hfaces.spells
    hfaces'.spells hs.current hspares
  refine ⟨hreached, hreached', ?_, ?_, fun hgap => ?_, ?_, fun _ => ?_, ?_⟩
  · rw [heq, heq']
    exact hagrees
  · rw [heq, heq', hu.eq, hu'.eq]
    exact hs.consumedTo_eq
  · have hsame : (s.rescanRegex (.standard text)).gap = s.gap := by
      unfold gap
      rw [hhere, heq, hu.eq]
    rw [hsame] at hgap
    rw [heq, heq', hu.eq, hu'.eq]
    exact hs.newlineBefore_eq hgap
  · rw [heq, heq']
    exact hnear
  · rw [heq, heq']
    exact hbreak
  · refine (rescanRegex_problems_eq ?_).trans hs.none
    rw [hagrees.error_eq]
    exact hspares.clear

/-- **The next token is the same in both texts**, and so are those behind
it, if it is no slash and not the last. -/
theorem even_next (hx : X.Even text other s x x') :
    x.nextSignificant.token.Agrees x'.nextSignificant.token
      ∧ (x.nextSignificant.token.isSlash = false →
        x.nextSignificant.token.isEof = false →
        ∃ u, X.Even text other u x.nextSignificant.scanner
          x'.nextSignificant.scanner) := by
  obtain ⟨hreached, hends, rfl, hslash, hsource, hnear, hbreak⟩ := hx
  cases heof : s.current.isEof with
  | true =>
    obtain ⟨_, _, hfaces⟩ := hreached.good.faces
    have hrest := hfaces.rest_of_eof heof
    refine ⟨(hnear.nextSignificant_of_end hrest).token, fun _ hnot => ?_⟩
    rw [Scanner.isEof_nextSignificant hrest] at hnot
    exact Bool.noConfusion hnot
  | false =>
    -- The next token is the one that is read next.
    obtain ⟨u, hsu, hscanner, hcurrent, hends⟩ :=
      Acts.exists_bump hends (runScript_quiet h.quiet).2 heof hslash
    have hu := hreached.acts hsu
    have hbump := hu.acts (.single (.bump (hcurrent ▸ heof)))
    rw [← hscanner] at hnear hbreak ⊢
    have hnext := h.near_nextSignificant hu.good.stands hu.good.comments_le
      hbump hends hsource hnear (hbreak heof)
    obtain ⟨before', hat'⟩ := hnear.at'
    obtain ⟨_, _, hfinds'⟩ := x'.nextSignificant_finds hat'
    refine ⟨hnext.token, fun hslash' heof' => ⟨_, hbump, hends,
      bump_scanner .., ?_, hfinds'.source_eq.trans hsource, hnext.scanner,
      fun _ => hnext.breakEmitted_eq heof'⟩⟩
    rwa [bump_current]

/-- **The replay of a parse** in the patched text. -/
def replay : Replay (.standard text) where
  other := other
  spots := X.spots
  Fits s := LeadsToEnd text s
  Beside s s' := X.Beside text other s s'
  Even x x' := ∃ s, X.Even text other s x x'
  fits_of_acts hst ht := hst.trans ht
  quiet hs := Acts.quiet hs (runScript_quiet h.quiet).1
  byteLength_eq := h.patched.byteLength_eq
  current hs := hs.current
  consumedTo_eq hs := hs.consumedTo_eq
  going hs := hs.reached'.good.aborted_eq rfl
  newlineBefore_eq hs hgap := hs.newlineBefore_eq hgap
  record hs event :=
    { hs with
      reached := hs.reached.acts (.single (.record event))
      reached' := hs.reached'.acts (.single (.record event)) }
  atDepth hs depth depth' :=
    { hs with
      reached := hs.reached.acts (.single (.level depth))
      reached' := hs.reached'.acts (.single (.level depth')) }
  bump hs heof hends := by
    have heof' : _ = false := hs.current.isEof_eq.trans heof
    exact h.bump hs.reached.good.stands hs.reached.good.comments_le
      (hs.reached.acts (.single (.bump heof)))
      (hs.reached'.acts (.single (.bump heof'))) hends hs.current
      hs.reached'.good.source_eq hs.near (hs.breakEmitted_eq heof) hs.none
  rescan hs hslash hends := h.rescan hs hslash hends
  even hs hends hslash :=
    ⟨_, hs.reached, hends, rfl, hslash, hs.reached'.good.source_eq, hs.near,
      hs.breakEmitted_eq⟩
  next hx := hx.elim (fun _ hx => h.even_next hx)

/-- **Both parses begin at the same place.** -/
theorem initial_beside : X.Beside text other (initial (.standard text))
    (initial (.standard other)) := by
  have hends := (runScript_gathers .standard .standard text).acts
  refine h.bump (blank_stands _) (fun _ hc => absurd hc (by simp [blank]))
    .refl .refl hends rfl rfl ?_ rfl rfl
  exact ⟨⟨[], Scanner.ofSource_at _⟩, ⟨[], Scanner.ofSource_at _⟩, rfl, rfl,
    h.patched⟩

/-- **The parse of the patched text** does the same, if no line break is
asked for where there is a spot. -/
theorem parse_eq : ∃ K,
    (h.replay).Yields (.standard text) K (initial (.standard text))
        ((parse text).program.body.map .statement)
        (runScript text .standard .standard).2
      ∧ ((h.replay).Clear K → (parse other).diagnostics = []
          ∧ (parse other).program.body = (parse text).program.body) := by
  obtain ⟨K, hyields, hsame⟩ := runScript_derives h.replay
  refine ⟨K, hyields, fun hclear => ?_⟩
  obtain ⟨hbody, hend⟩ := hsame .refl hclear h.initial_beside
  exact ⟨hend.none, hbody⟩

end Unseen

end Patches

end ScriptTree
