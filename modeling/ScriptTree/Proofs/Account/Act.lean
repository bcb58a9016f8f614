import ScriptTree.Proofs.Abreast.Family
import ScriptTree.Proofs.Parse.Place
import ScriptTree.Proofs.Token.Form
import ScriptTree.Proofs.Token.Front

/-!
# What a parse has come by

A step of a parse may take down any problem there is, and so it says
nothing about the problems. But no production takes down a problem without
a reason: its span lies in the text, and if it says that one token was
found where another was expected, the token found is one the parse knows,
and nothing else is wrong with it (`State.Warrants`). An **act** is a step
with this in it.

A state is **reached** if acts lead to it from the front of the text. Here
is what holds of the tokens such a state knows (`State.Reached.sound`).
Where nothing has gone wrong so far – the state is **clean** – nothing is
wrong with any of them. Each has the form its kind asks for, whichever way
the parse went through the text (`State.Reached.known_hasForm`).
-/

namespace ScriptTree

/-! ## Spans and messages -/

/-- **A span between two places where the text can be cut.** It may be
empty. -/
structure Span.Framed (s : Span) (text : List Char) : Prop where
  /-- It begins where the text can be cut. -/
  isCut_start : IsCut text s.start
  /-- It ends where the text can be cut. -/
  isCut_stop : IsCut text s.stop
  /-- It does not end before it begins. -/
  le : s.start ≤ s.stop

theorem Span.Fits.framed {s : Span} {text : List Char} (h : s.Fits text) :
    s.Framed text :=
  ⟨h.isCut_start, h.isCut_stop, Nat.le_of_lt h.start_lt_stop⟩

/-- **A message that one thing was found where another was expected.** -/
def IsMismatch (message : String) : Prop :=
  ∃ expected found, message = "expected " ++ expected ++ ", found " ++ found

/-- A mismatch is known by its first letter. -/
theorem IsMismatch.head {message : String} (h : IsMismatch message) :
    message.toList.head? = some 'e' := by
  obtain ⟨expected, found, rfl⟩ := h
  simp

/-- A message that begins with another letter is none. -/
theorem IsMismatch.not_of_head (front back : String)
    (hne : front ≠ "") (h : front.toList.head? ≠ some 'e') :
    ¬IsMismatch (front ++ back) := by
  intro hmismatch
  have hhead := hmismatch.head
  rw [String.toList_append, List.head?_append] at hhead
  cases hfront : front.toList with
  | nil => exact hne (by rw [← String.ofList_toList (s := front), hfront])
  | cons c cs =>
    rw [hfront] at h hhead
    exact h hhead

namespace State

variable {root : Context} {s t u : State}

/-! ## Acts -/

/-- The tokens a parse knows: the current one, and those that were
current. -/
def known (s : State) : List Token := s.current :: s.taken

/-- **A reason to take down a problem.** -/
structure Warrants (root : Context) (s : State) (kind : DiagnosticKind)
    (message : String) (span : Span) : Prop where
  /-- Problems with tokens are taken down where the tokens are read. -/
  ne_lexical : kind ≠ .lexical
  /-- The span lies in the text. -/
  framed : span.Framed root.source
  /-- What was found instead of something else is a token that is known,
  and nothing else is wrong with it. -/
  of_mismatch : IsMismatch message →
    ∃ x ∈ s.known, x.error = none ∧ x.span = span

/-- **What a parse may do.** -/
inductive Act (root : Context) : State → State → Prop where
  /-- The current token is read; it is not the end of the text. -/
  | bump {s : State} (isEof : s.current.isEof = false) :
      Act root s (s.bump root)
  /-- The current token, a slash, is read again as a regular
  expression. -/
  | rescan {s : State}
      (slash : s.current.kind = .punctuator .slash
        ∨ s.current.kind = .punctuator .slashEq) :
      Act root s (s.rescanRegex root)
  /-- A problem is taken down, for a reason. -/
  | report {s : State} {kind : DiagnosticKind} (severity : Severity)
      {message : String} {span : Span}
      (warrants : s.Warrants root kind message span) :
      Act root s (s.report root kind severity message span)
  /-- A decision is taken down. -/
  | record {s : State} (event : Event) :
      Act root s { s with events := s.events.push event }
  /-- A level is entered or left. -/
  | level {s : State} (depth : Option Nat) : Act root s (s.atDepth depth)

/-- **One state comes after another** by acts. -/
abbrev Acts (root : Context) : State → State → Prop :=
  Relation.ReflTransGen (Act root)

/-- **A state that is reached** from the front of the text. -/
def Reached (root : Context) (s : State) : Prop :=
  Acts root (initial root) s

theorem Reached.acts (hs : s.Reached root) (h : Acts root s t) :
    t.Reached root :=
  Relation.ReflTransGen.trans hs h

theorem Act.good (h : Act root s t) (hs : s.Good root) : t.Good root := by
  cases h with
  | bump isEof => exact (Step.bump isEof).still_or_past hs |>.1
  | rescan slash => exact (Step.rescan slash).still_or_past hs |>.1
  | report severity _ =>
    exact (Step.report _ severity _ _).still_or_past hs |>.1
  | record event => exact (Step.record event).still_or_past hs |>.1
  | level depth => exact hs.atDepth depth

/-- **What holds at the front of the text and is kept by acts** holds of
every state that is reached. -/
theorem Reached.induction {P : State → Prop} (hs : s.Reached root)
    (hinitial : P (initial root))
    (hact : ∀ s t, s.Good root → Act root s t → P s → P t) :
    s.Good root ∧ P s := by
  induction hs with
  | refl => exact ⟨initial_good root, hinitial⟩
  | tail _ h ih => exact ⟨h.good ih.1, hact _ _ ih.1 h ih.2⟩

theorem Reached.good (hs : s.Reached root) : s.Good root :=
  (hs.induction (P := fun _ => True) trivial (fun _ _ _ _ _ => trivial)).1

/-! ## Clean states -/

/-- **A state in which nothing has gone wrong**: no error was taken down,
although there is room for one. -/
structure Clean (root : Context) (s : State) : Prop where
  /-- No error has ended the parse. -/
  going : s.aborted = false
  /-- There is room for another problem. -/
  room : s.problems.length < root.options.maxDiagnostics
  /-- There is no error. -/
  quiet : ∀ d ∈ s.problems, d.isError = false

/-- What is taken down in a clean state is a warning. -/
theorem report_clean {kind : DiagnosticKind} {severity : Severity}
    {message : String} {span : Span}
    (h : (s.report root kind severity message span).Clean root) :
    s.Clean root ∧ severity = .warning := by
  unfold report at h
  split at h
  · rename_i hstop
    have hroom := h.room
    simp only [Bool.or_eq_true, h.going, decide_eq_true_eq, problems,
      Array.length_toList] at hstop hroom
    simp only [Bool.false_eq_true, false_or] at hstop
    omega
  · rename_i hgoing
    simp only [Bool.or_eq_true, not_or, Bool.not_eq_true] at hgoing
    have hlist : ∀ d, (s.diagnostics.push d).toList = s.problems ++ [d] :=
      fun d => Array.toList_push
    have hroom := h.room
    have hquiet := h.quiet
    simp only [problems, hlist] at hroom hquiet
    refine ⟨⟨hgoing.1, ?_, fun d hd => ?_⟩, ?_⟩
    · rw [List.length_append] at hroom
      exact Nat.lt_of_le_of_lt (Nat.le_add_right _ _) hroom
    · exact hquiet d (List.mem_append_left _ hd)
    · cases severity with
      | warning => rfl
      | error =>
        exact nomatch hquiet _ (List.mem_append_right _ List.mem_cons_self)

theorem reportToken_clean {token : Token}
    (h : (s.reportToken root token).Clean root) :
    s.Clean root ∧ token.error = none := by
  unfold reportToken at h
  split at h
  · exact nomatch (report_clean h).2
  · exact ⟨h, ‹_›⟩

theorem foldl_passExtra_clean {extras : List Token}
    (h : (extras.foldl (passExtra root) s).Clean root) : s.Clean root := by
  induction extras generalizing s with
  | nil => exact h
  | cons x extras ih =>
    have hpass := ih h
    unfold passExtra at hpass
    split at hpass
    · exact ⟨hpass.going, hpass.room, hpass.quiet⟩
    · dsimp only at hpass
      refine (reportToken_clean (?_ : (s.reportToken root x).Clean root)).1
      split at hpass
      · exact ⟨hpass.going, hpass.room, hpass.quiet⟩
      · exact hpass

/-- Where nothing has gone wrong, nothing is wrong with the comments that
are passed. -/
theorem foldl_passExtra_clear {extras : List Token}
    (h : (extras.foldl (passExtra root) s).Clean root) :
    ∀ y ∈ extras, y.kind ≠ .lineBreak → y.error = none := by
  induction extras generalizing s with
  | nil => exact List.forall_mem_nil _
  | cons x extras ih =>
    refine List.forall_mem_cons.2 ⟨fun hkind => ?_, ih h⟩
    have hpass : (s.passExtra root x).Clean root := foldl_passExtra_clean h
    unfold passExtra at hpass
    rw [if_neg hkind] at hpass
    refine (reportToken_clean (?_ : (s.reportToken root x).Clean root)).2
    dsimp only at hpass
    split at hpass
    · exact ⟨hpass.going, hpass.room, hpass.quiet⟩
    · exact hpass

/-- Where a token has been read and the state is clean, nothing is wrong
with the next one. -/
theorem bump_clean (h : (s.bump root).Clean root) :
    s.Clean root ∧ (s.bump root).current.error = none := by
  have hreport : (reportToken root s.scanner.nextSignificant.token
      (s.scanner.nextSignificant.extras.foldl (passExtra root)
        { s with
          scanner := s.scanner.nextSignificant.scanner
          consumedTo := s.current.span.stop
          taken := s.current :: s.taken
          newlineBefore := false })).Clean root :=
    ⟨h.going, h.room, h.quiet⟩
  obtain ⟨hpass, herror⟩ := reportToken_clean hreport
  have hs := foldl_passExtra_clean hpass
  exact ⟨⟨hs.going, hs.room, hs.quiet⟩, herror⟩

theorem bump_extras_clear (h : (s.bump root).Clean root) :
    ∀ y ∈ s.scanner.nextSignificant.extras, y.kind ≠ .lineBreak →
      y.error = none := by
  have hreport : (reportToken root s.scanner.nextSignificant.token
      (s.scanner.nextSignificant.extras.foldl (passExtra root)
        { s with
          scanner := s.scanner.nextSignificant.scanner
          consumedTo := s.current.span.stop
          taken := s.current :: s.taken
          newlineBefore := false })).Clean root :=
    ⟨h.going, h.room, h.quiet⟩
  exact foldl_passExtra_clear (reportToken_clean hreport).1

theorem rescanRegex_clean (h : (s.rescanRegex root).Clean root) :
    s.Clean root ∧ (s.rescanRegex root).current.error = none := by
  have hreport : (reportToken root (s.scanner.rescanRegex s.current).1
      { s with scanner := (s.scanner.rescanRegex s.current).2 }).Clean root :=
    ⟨h.going, h.room, h.quiet⟩
  obtain ⟨hs, herror⟩ := reportToken_clean hreport
  exact ⟨⟨hs.going, hs.room, hs.quiet⟩, herror⟩

theorem Act.clean (h : Act root s t) (ht : t.Clean root) :
    s.Clean root := by
  cases h with
  | bump => exact (bump_clean ht).1
  | rescan => exact (rescanRegex_clean ht).1
  | report => exact (report_clean ht).1
  | record | level => exact ⟨ht.going, ht.room, ht.quiet⟩

/-- **What has gone wrong is not undone.** -/
theorem Acts.clean (h : Acts root s t) (ht : t.Clean root) :
    s.Clean root := by
  induction h with
  | refl => exact ht
  | tail _ hact ih => exact ih (hact.clean ht)

/-! ## What is known -/

/-- **What is known of the tokens a parse knows.** -/
structure Sound (root : Context) (s : State) : Prop where
  /-- They are as the scanner makes them. -/
  regular : ∀ x ∈ s.known, x.Regular
  /-- They lie in the text. -/
  framed : ∀ x ∈ s.known, x.span.Framed root.source
  /-- Those that were read end where the last of them ends, or before. -/
  taken_le : ∀ x ∈ s.taken, x.span.stop ≤ s.consumedTo
  /-- Nothing is wrong with any of them if nothing has gone wrong. -/
  clear : s.Clean root → ∀ x ∈ s.known, x.error = none

/-- **A scanner behind the current token**, as it is before and after a
token is read. -/
structure Stands (root : Context) (s : State) : Prop where
  /-- The scanner reads the text of the parse. -/
  source_eq : s.scanner.source = root.source
  /-- It stands where the current token ends. -/
  at_stop : ∃ front, s.scanner.At front
    ∧ s.current.span.stop = byteLength front
  /-- The token before ends before that. -/
  consumedTo_le : s.consumedTo ≤ s.current.span.stop

theorem Good.here_le_stop (hs : s.Good root) :
    s.here ≤ s.current.span.stop := by
  obtain ⟨front, text, h⟩ := hs.faces
  rw [h.here_eq, h.stop_eq]
  exact Nat.le_add_right _ _

theorem Good.stands (hs : s.Good root) : s.Stands root where
  source_eq := hs.source_eq
  at_stop := by
    obtain ⟨front, text, h⟩ := hs.faces
    exact ⟨_, h.at_behind, by rw [h.stop_eq, byteLength_append]⟩
  consumedTo_le := Nat.le_trans hs.consumedTo_le hs.here_le_stop

theorem blank_stands (root : Context) :
    (blank root.source).Stands root where
  source_eq := rfl
  at_stop := ⟨[], Scanner.ofSource_at _, rfl⟩
  consumedTo_le := Nat.le_refl _

theorem Good.framed_current (hs : s.Good root) :
    s.current.span.Framed root.source := by
  obtain ⟨front, text, h⟩ := hs.faces
  refine ⟨hs.isCut_here, ?_, hs.here_le_stop⟩
  rw [h.stop_eq, h.source_eq hs, ← List.append_assoc, ← byteLength_append]
  exact isCut_append _ _

theorem bump_known (root : Context) (s : State) :
    (s.bump root).known
      = s.scanner.nextSignificant.token :: s.known := by
  obtain ⟨t, _, heq⟩ := bump_eq root s
  rw [heq]
  rfl

theorem Stands.bump_sound (hstands : s.Stands root) (hs : s.Sound root)
    (hgood : (s.bump root).Good root) : (s.bump root).Sound root := by
  have hcons : (s.bump root).consumedTo = s.current.span.stop := by
    obtain ⟨t, _, heq⟩ := bump_eq root s
    rw [heq]
  have htaken : (s.bump root).taken = s.known := by
    obtain ⟨t, _, heq⟩ := bump_eq root s
    rw [heq]
    rfl
  have hcurrent : (s.bump root).current
      = s.scanner.nextSignificant.token := rfl
  refine ⟨?_, ?_, ?_, ?_⟩
  · rw [bump_known]
    refine List.forall_mem_cons.2 ⟨?_, hs.regular⟩
    exact s.scanner.nextSignificant_regular
  · rw [bump_known]
    exact List.forall_mem_cons.2 ⟨hgood.framed_current, hs.framed⟩
  · rw [htaken, hcons]
    refine List.forall_mem_cons.2 ⟨Nat.le_refl _, fun x hx => ?_⟩
    exact Nat.le_trans (hs.taken_le x hx) hstands.consumedTo_le
  · intro hclean
    obtain ⟨hclean, herror⟩ := bump_clean hclean
    rw [bump_known]
    exact List.forall_mem_cons.2 ⟨herror, hs.clear hclean⟩

theorem blank_sound (root : Context) : (blank root.source).Sound root where
  regular := by
    refine List.forall_mem_singleton.2 ⟨fun _ => rfl, fun _ h => nomatch h⟩
  framed := by
    refine List.forall_mem_singleton.2 ⟨?_, ?_, Nat.le_refl _⟩ <;>
    exact ⟨[], _, rfl, rfl⟩
  taken_le _ h := nomatch h
  clear _ := List.forall_mem_singleton.2 rfl

/-- Where the tokens are the same and no less has gone wrong, the same is
known of them. -/
theorem Sound.congr (hs : s.Sound root) (hknown : t.known = s.known)
    (hconsumed : t.consumedTo = s.consumedTo)
    (hclean : t.Clean root → s.Clean root) : t.Sound root := by
  have htaken : t.taken = s.taken := (List.cons.inj hknown).2
  refine ⟨?_, ?_, ?_, ?_⟩
  · rw [hknown]
    exact hs.regular
  · rw [hknown]
    exact hs.framed
  · rw [htaken, hconsumed]
    exact hs.taken_le
  · rw [hknown]
    exact fun h => hs.clear (hclean h)

theorem rescanRegex_known (root : Context) (s : State) :
    (s.rescanRegex root).known
      = (s.scanner.rescanRegex s.current).1 :: s.taken := by
  obtain ⟨t, ht, heq⟩ := rescanRegex_eq root s
  rw [heq, ht.eq]
  rfl

theorem rescanRegex_sound (hgood : (s.rescanRegex root).Good root)
    (hs : s.Sound root) : (s.rescanRegex root).Sound root := by
  have hsame : (s.rescanRegex root).taken = s.taken
      ∧ (s.rescanRegex root).consumedTo = s.consumedTo := by
    obtain ⟨t, ht, heq⟩ := rescanRegex_eq root s
    rw [heq, ht.eq]
    exact ⟨rfl, rfl⟩
  have hregular : (s.scanner.rescanRegex s.current).1.Regular := by
    have hkind : (s.scanner.rescanRegex s.current).1.kind = .regex := by
      simp [Scanner.rescanRegex]
    refine ⟨fun h => ?_, fun p hp => ?_⟩ <;>
    · rw [hkind] at *
      contradiction
  refine ⟨?_, ?_, ?_, ?_⟩
  · rw [rescanRegex_known]
    exact List.forall_mem_cons.2
      ⟨hregular, (List.forall_mem_cons.1 hs.regular).2⟩
  · rw [rescanRegex_known]
    exact List.forall_mem_cons.2
      ⟨hgood.framed_current, (List.forall_mem_cons.1 hs.framed).2⟩
  · rw [hsame.1, hsame.2]
    exact hs.taken_le
  · intro hclean
    obtain ⟨hclean, herror⟩ := rescanRegex_clean hclean
    rw [rescanRegex_known]
    exact List.forall_mem_cons.2
      ⟨herror, (List.forall_mem_cons.1 (hs.clear hclean)).2⟩

theorem Act.sound (h : Act root s t) (hgood : s.Good root)
    (hs : s.Sound root) : t.Sound root := by
  have hgood' := h.good hgood
  cases h with
  | bump => exact hgood.stands.bump_sound hs hgood'
  | rescan => exact rescanRegex_sound hgood' hs
  | @report kind severity message span =>
    have hr := report_reported root kind severity message span s
    refine hs.congr ?_ ?_ (fun ht => (report_clean ht).1)
    · rw [hr.eq]
      rfl
    · rw [hr.eq]
  | record | level =>
    exact hs.congr rfl rfl (fun ht => ⟨ht.going, ht.room, ht.quiet⟩)

/-- **What is known of the tokens** a state that is reached knows. -/
theorem Reached.sound (hs : s.Reached root) : s.Sound root :=
  (hs.induction
    ((blank_stands root).bump_sound (blank_sound root) (initial_good root))
    (fun _ _ hgood h hs => h.sound hgood hs)).2

/-! ## Their form -/

theorem Act.known_hasForm (h : Act root s t) (hgood : s.Good root)
    (hs : ∀ x ∈ s.known, x.HasForm) : ∀ x ∈ t.known, x.HasForm := by
  cases h with
  | bump =>
    rw [bump_known]
    exact List.forall_mem_cons.2 ⟨Scanner.nextSignificant_hasForm _, hs⟩
  | rescan slash =>
    rw [rescanRegex_known]
    refine List.forall_mem_cons.2 ⟨?_, (List.forall_mem_cons.1 hs).2⟩
    obtain ⟨front, text, hfaces⟩ := hgood.faces
    obtain ⟨cs, rfl⟩ := hfaces.exists_of_slash slash
    have hsource : s.scanner.source
        = front ++ '/' :: (cs ++ s.scanner.rest) := by
      rw [hgood.source_eq, hfaces.source_eq hgood, List.cons_append]
    exact Scanner.rescanRegex_hasForm hsource hfaces.here_eq
  | @report kind severity message span =>
    have hr := report_reported root kind severity message span s
    rw [hr.eq]
    exact hs
  | record | level => exact hs

/-- **The tokens a state knows** are in form, if it is reached. -/
theorem Reached.known_hasForm (hs : s.Reached root) :
    ∀ x ∈ s.known, x.HasForm := by
  refine (hs.induction (P := fun s => ∀ x ∈ s.known, x.HasForm) ?_
    fun _ _ hgood hact h => hact.known_hasForm hgood h).2
  show ∀ x ∈ ((blank root.source).bump root).known, x.HasForm
  rw [bump_known]
  refine List.forall_mem_cons.2 ⟨Scanner.nextSignificant_hasForm _, ?_⟩
  exact List.forall_mem_singleton.2 (.other rfl nofun nofun nofun)

end State

end ScriptTree
