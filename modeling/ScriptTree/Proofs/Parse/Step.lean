import Mathlib.Logic.Relation
import ScriptTree.Parse.State

/-!
# What a parse can do in one step

However many productions there are, a parse changes its state in four
ways only: it reads a token, it reads a token once more as a regular
expression, it takes down a problem, or it takes down a decision. Each
way is a function on states, and here is an equation for what it leaves
as it was. What holds at every step holds of every run, so no production
has to be asked about it.

All productions of a run stand in contexts that differ only in where in
the script they are. `Context.Within` says so, and a step does the same
in each of them.
-/

namespace ScriptTree

/-- **A context of a run**: it knows of the same text, options and
operators as the context the run began in. -/
structure Context.Within (root ctx : Context) : Prop where
  /-- The text is the same. -/
  source_eq : ctx.source = root.source
  /-- So are the turns a loop may take. -/
  turns_eq : ctx.turns = root.turns
  /-- So are the options. -/
  options_eq : ctx.options = root.options
  /-- So are the operators. -/
  table_eq : ctx.table = root.table

namespace Context.Within

variable {root ctx : Context}

/-- A context is one of its own run. -/
theorem refl (root : Context) : root.Within root := ⟨rfl, rfl, rfl, rfl⟩

/-- Between brackets the text and the options are the same. -/
theorem inBrackets (h : root.Within ctx) : root.Within ctx.inBrackets :=
  ⟨h.source_eq, h.turns_eq, h.options_eq, h.table_eq⟩

theorem withoutIn (h : root.Within ctx) : root.Within ctx.withoutIn :=
  ⟨h.source_eq, h.turns_eq, h.options_eq, h.table_eq⟩

/-- So they are in a list of statements. -/
theorem inList (h : root.Within ctx) (listEnd : ListEnd) :
    root.Within (ctx.inList listEnd) :=
  ⟨h.source_eq, h.turns_eq, h.options_eq, h.table_eq⟩

end Context.Within

namespace State

/-! ## Problems -/

/-- **A state with other problems.** The parse may have ended with the
last of them, but not where errors are tolerated. -/
structure Reported (ctx : Context) (s t : State) : Prop where
  /-- Nothing else is different. -/
  eq : t = { s with diagnostics := t.diagnostics, aborted := t.aborted }
  /-- A tolerant parse goes on. -/
  aborted_eq : ctx.options.tolerant = true → t.aborted = s.aborted

theorem Reported.refl (ctx : Context) (s : State) : s.Reported ctx s :=
  ⟨rfl, fun _ => rfl⟩

/-- A problem that is taken down, or for which there is no room, changes
nothing else. -/
theorem report_reported (ctx : Context) (kind : DiagnosticKind)
    (severity : Severity) (message : String) (span : Span) (s : State) :
    s.Reported ctx (s.report ctx kind severity message span) := by
  unfold report
  split
  · exact .refl ctx s
  · rename_i h
    refine ⟨rfl, fun htolerant => ?_⟩
    simp only [Bool.or_eq_true, not_or, Bool.not_eq_true] at h
    simp [htolerant, h.1]

/-- What is wrong with a token is a problem like others. -/
theorem reportToken_reported (ctx : Context) (token : Token) (s : State) :
    s.Reported ctx (s.reportToken ctx token) := by
  unfold reportToken
  split
  · exact report_reported ..
  · exact .refl ctx s

/-! ## Reading a token -/

/-- The comments among some tokens, as far as they are kept. -/
def keptComments (options : Options) (extras : List Token) : List Comment :=
  if options.collectComments then
    (extras.filter (fun t => t.kind ≠ .lineBreak)).map commentOf
  else []

/-- What is passed on the way to a token changes the comments, the note
of a line break, and the problems. -/
theorem foldl_passExtra_eq (ctx : Context) (extras : List Token)
    (s : State) :
    ∃ t, s.Reported ctx t ∧ extras.foldl (passExtra ctx) s =
      { t with
        newlineBefore :=
          s.newlineBefore || extras.any (fun x => x.kind = .lineBreak)
        comments :=
          s.comments ++ (keptComments ctx.options extras).toArray } := by
  -- The problems are left to `t`; everything else is accounted for.
  induction extras generalizing s with
  | nil => exact ⟨s, .refl ctx s, by simp [keptComments]⟩
  | cons x extras ih =>
    obtain ⟨t, ht, heq⟩ := ih (s.passExtra ctx x)
    rw [List.foldl_cons, heq]
    by_cases hx : x.kind = .lineBreak
    · have hpass : s.passExtra ctx x = { s with newlineBefore := true } :=
        if_pos hx
      refine ⟨{ t with newlineBefore := s.newlineBefore }, ⟨?_, ?_⟩, ?_⟩
      · rw [ht.eq, hpass]
      · exact fun h => (ht.aborted_eq h).trans (by rw [hpass])
      · simp [hpass, keptComments, hx]
    · have hpass : s.passExtra ctx x =
          { s.reportToken ctx x with
            comments := s.comments
              ++ (keptComments ctx.options [x]).toArray } := by
        have hsame := (reportToken_reported ctx x s).eq
        unfold passExtra
        rw [if_neg hx]
        by_cases hkeep : ctx.options.collectComments = true
        · simp only [hkeep, if_true, keptComments]
          rw [hsame]
          simp [hx]
        · simp only [hkeep, keptComments]
          rw [hsame]
          simp
      have hsame := reportToken_reported ctx x s
      refine ⟨{ t with comments := s.comments }, ⟨?_, ?_⟩, ?_⟩
      · rw [ht.eq, hpass, hsame.eq]
      · intro h
        rw [← hsame.aborted_eq h]
        exact (ht.aborted_eq h).trans (by rw [hpass])
      · rw [hpass, hsame.eq]
        by_cases hkeep : ctx.options.collectComments = true
        · simp [keptComments, hkeep, hx]
        · simp [keptComments, hkeep, hx]

/-- **What reading a token changes**, its problems aside. -/
theorem bump_eq (ctx : Context) (s : State) :
    ∃ t, s.Reported ctx t ∧ s.bump ctx =
      { t with
        scanner := s.scanner.nextSignificant.scanner
        current := s.scanner.nextSignificant.token
        newlineBefore := s.scanner.nextSignificant.extras.any
          (fun x => x.kind = .lineBreak)
        consumedTo := s.current.span.stop
        taken := s.current :: s.taken
        comments := s.comments ++ (keptComments ctx.options
          s.scanner.nextSignificant.extras).toArray } := by
  obtain ⟨t, ht, heq⟩ := foldl_passExtra_eq ctx
    s.scanner.nextSignificant.extras
    { s with
      scanner := s.scanner.nextSignificant.scanner
      consumedTo := s.current.span.stop
      taken := s.current :: s.taken
      newlineBefore := false }
  have hsame := reportToken_reported ctx s.scanner.nextSignificant.token
    (s.scanner.nextSignificant.extras.foldl (passExtra ctx)
      { s with
        scanner := s.scanner.nextSignificant.scanner
        consumedTo := s.current.span.stop
        taken := s.current :: s.taken
        newlineBefore := false })
  generalize hu : State.reportToken .. = u at hsame
  refine ⟨{ s with diagnostics := u.diagnostics, aborted := u.aborted },
    ⟨rfl, fun h => ?_⟩, ?_⟩
  · rw [hsame.aborted_eq h, heq]
    exact ht.aborted_eq h
  · unfold bump
    dsimp only
    rw [hu, hsame.eq, heq, ht.eq]
    simp

/-- **What reading a token as a regular expression changes**, its
problems aside. -/
theorem rescanRegex_eq (ctx : Context) (s : State) :
    ∃ t, s.Reported ctx t ∧ s.rescanRegex ctx =
      { t with
        scanner := (s.scanner.rescanRegex s.current).2
        current := (s.scanner.rescanRegex s.current).1 } := by
  have hsame := reportToken_reported ctx
    (s.scanner.rescanRegex s.current).1
    { s with scanner := (s.scanner.rescanRegex s.current).2 }
  generalize hu : State.reportToken .. = u at hsame
  refine ⟨{ s with diagnostics := u.diagnostics, aborted := u.aborted },
    ⟨rfl, hsame.aborted_eq⟩, ?_⟩
  unfold rescanRegex
  dsimp only
  rw [hu, hsame.eq]

/-! ## Steps -/

/-- **Nothing is taken down differently** in another context of the run. -/
theorem report_congr {root ctx : Context} (h : root.Within ctx)
    (kind : DiagnosticKind) (severity : Severity) (message : String)
    (span : Span) (s : State) :
    s.report ctx kind severity message span
      = s.report root kind severity message span := by
  unfold report
  rw [h.source_eq, h.options_eq]

theorem reportToken_congr {root ctx : Context} (h : root.Within ctx)
    (token : Token) (s : State) :
    s.reportToken ctx token = s.reportToken root token := by
  unfold reportToken
  simp only [report_congr h]

theorem passExtra_congr {root ctx : Context} (h : root.Within ctx) :
    passExtra ctx = passExtra root := by
  funext s token
  unfold passExtra
  rw [reportToken_congr h, h.options_eq]

/-- A token is read alike in all contexts of a run. -/
theorem bump_congr {root ctx : Context} (h : root.Within ctx)
    (s : State) : s.bump ctx = s.bump root := by
  unfold bump
  dsimp only
  rw [passExtra_congr h, reportToken_congr h]

/-- It is read again alike. -/
theorem rescanRegex_congr {root ctx : Context} (h : root.Within ctx)
    (s : State) : s.rescanRegex ctx = s.rescanRegex root := by
  unfold rescanRegex
  simp only [reportToken_congr h]

/-- **One step of a parse** that began in the context `root`. -/
inductive Step (root : Context) : State → State → Prop where
  /-- The current token is read; it is not the end of the text. -/
  | bump {s : State} (isEof : s.current.isEof = false) :
      Step root s (s.bump root)
  /-- The current token, a slash, is read again as a regular
  expression. -/
  | rescan {s : State}
      (slash : s.current.kind = .punctuator .slash
        ∨ s.current.kind = .punctuator .slashEq) :
      Step root s (s.rescanRegex root)
  /-- A problem is taken down. -/
  | report {s : State} (kind : DiagnosticKind) (severity : Severity)
      (message : String) (span : Span) :
      Step root s (s.report root kind severity message span)
  /-- A decision is taken down. -/
  | record {s : State} (event : Event) :
      Step root s { s with events := s.events.push event }

/-- **One state comes after another** in a parse. -/
abbrev Steps (root : Context) : State → State → Prop :=
  Relation.ReflTransGen (Step root)

/-! ## What stands beside a run -/

/-- **A state with other things beside it** that no step looks at: the
number of levels entered, and the tokens that were current before. -/
def aside (depth : Option Nat → Option Nat)
    (taken : List Token → List Token) (s : State) : State :=
  { s with depth := depth s.depth, taken := taken s.taken }

section Aside

variable (ctx : Context) (depth : Option Nat → Option Nat)
  (taken : List Token → List Token) (s : State)

/-- **A problem is taken down** whatever stands beside the run. -/
theorem report_aside (kind : DiagnosticKind) (severity : Severity)
    (message : String) (span : Span) :
    (s.aside depth taken).report ctx kind severity message span
      = (s.report ctx kind severity message span).aside depth taken := by
  unfold report
  rw [apply_ite (aside depth taken)]
  rfl

theorem reportError_aside (kind : DiagnosticKind) (error : ParseError) :
    (s.aside depth taken).reportError ctx kind error
      = (s.reportError ctx kind error).aside depth taken := by
  unfold reportError
  split
  · rfl
  · exact report_aside ..

theorem reportToken_aside (token : Token) :
    (s.aside depth taken).reportToken ctx token
      = (s.reportToken ctx token).aside depth taken := by
  unfold reportToken
  split
  · exact report_aside ..
  · rfl

/-- A token is passed over whatever stands beside it. -/
theorem passExtra_aside (token : Token) :
    (s.aside depth taken).passExtra ctx token
      = (s.passExtra ctx token).aside depth taken := by
  unfold passExtra
  simp only [reportToken_aside, apply_ite (aside depth taken)]
  rfl

theorem foldl_passExtra_aside (extras : List Token) :
    extras.foldl (passExtra ctx) (s.aside depth taken)
      = (extras.foldl (passExtra ctx) s).aside depth taken := by
  induction extras generalizing s with
  | nil => rfl
  | cons x extras ih =>
    rw [List.foldl_cons, passExtra_aside, ih, List.foldl_cons]

/-- **A token is read** whatever stands beside the run. -/
theorem bump_aside (htaken : ∀ x xs, taken (x :: xs) = x :: taken xs) :
    (s.aside depth taken).bump ctx = (s.bump ctx).aside depth taken := by
  let step := s.scanner.nextSignificant
  let u : State :=
    { s with
      scanner := step.scanner
      consumedTo := s.current.span.stop
      taken := s.current :: s.taken
      newlineBefore := false }
  have hu : u.aside depth taken =
      { s.aside depth taken with
        scanner := step.scanner
        consumedTo := s.current.span.stop
        taken := s.current :: taken s.taken
        newlineBefore := false } := by
    rw [← htaken]
    rfl
  have h := reportToken_aside ctx depth taken
    (step.extras.foldl (passExtra ctx) u) step.token
  rw [← foldl_passExtra_aside, hu] at h
  exact congrArg (fun t : State => { t with current := step.token }) h

/-- A token is read again whatever stands beside the run. -/
theorem rescanRegex_aside :
    (s.aside depth taken).rescanRegex ctx
      = (s.rescanRegex ctx).aside depth taken := by
  have h := reportToken_aside ctx depth taken
    { s with scanner := (s.scanner.rescanRegex s.current).2 }
    (s.scanner.rescanRegex s.current).1
  exact congrArg (fun t : State =>
    { t with current := (s.scanner.rescanRegex s.current).1 }) h

end Aside

/-! ## Levels -/

/-- A state with another number of levels entered. -/
def atDepth (depth : Option Nat) (s : State) : State :=
  { s with depth := depth }

section Levels

variable (ctx : Context) (depth : Option Nat) (s : State)

theorem report_atDepth (kind : DiagnosticKind) (severity : Severity)
    (message : String) (span : Span) :
    (s.atDepth depth).report ctx kind severity message span
      = (s.report ctx kind severity message span).atDepth depth :=
  report_aside ctx (fun _ => depth) id s kind severity message span

/-- A token is read alike on all levels. -/
theorem bump_atDepth :
    (s.atDepth depth).bump ctx = (s.bump ctx).atDepth depth :=
  bump_aside ctx (fun _ => depth) id s fun _ _ => rfl

theorem rescanRegex_atDepth :
    (s.atDepth depth).rescanRegex ctx
      = (s.rescanRegex ctx).atDepth depth :=
  rescanRegex_aside ctx (fun _ => depth) id s

variable {ctx depth s} {root : Context} {t : State}

/-- **No step looks at how many levels have been entered.** -/
theorem Step.atDepth (h : Step root s t) :
    Step root (s.atDepth depth) (t.atDepth depth) := by
  cases h with
  | bump isEof => rw [← bump_atDepth]; exact .bump isEof
  | rescan slash => rw [← rescanRegex_atDepth]; exact .rescan slash
  | report kind severity message span =>
    rw [← report_atDepth]; exact .report kind severity message span
  | record event => exact .record event

/-- **No step enters a level**, or leaves one. -/
theorem Step.depth_eq (h : Step root s t) : t.depth = s.depth := by
  cases h with
  | bump isEof =>
    obtain ⟨t, ht, heq⟩ := bump_eq root s
    rw [heq, ht.eq]
  | rescan slash =>
    obtain ⟨t, ht, heq⟩ := rescanRegex_eq root s
    rw [heq, ht.eq]
  | report kind severity message span =>
    rw [(report_reported root kind severity message span s).eq]
  | record event => rfl

theorem Steps.atDepth (h : Steps root s t) :
    Steps root (s.atDepth depth) (t.atDepth depth) := by
  induction h with
  | refl => exact .refl
  | tail _ hstep ih => exact ih.tail hstep.atDepth

/-- So the levels are the same behind any number of steps. -/
theorem Steps.depth_eq (h : Steps root s t) : t.depth = s.depth := by
  induction h with
  | refl => rfl
  | tail _ hstep ih => exact hstep.depth_eq.trans ih

/-- What is left after it was entered is where it was. -/
theorem leave_of_enter (h : t.depth = s.enter.depth) :
    t.leave = t.atDepth s.depth := by
  unfold leave
  rw [h]
  unfold enter
  cases s.depth <;> rfl

/-- **What is done inside a level** is done outside of it. -/
theorem Steps.leave (h : Steps root s.enter t) : Steps root s t.leave := by
  rw [leave_of_enter h.depth_eq]
  exact h.atDepth

end Levels

end State

end ScriptTree
