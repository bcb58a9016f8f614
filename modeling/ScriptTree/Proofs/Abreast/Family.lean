import ScriptTree.Parse.Action

/-!
# Parses side by side

What do the options of a parse change? To answer this one parse is not
enough: the same text has to be parsed under different options, and the
parses compared. A `Family` is as many parses of one text as there are
ways to choose the options, taken together. They go **abreast** as long
as they stand at the same place of the text and read the same, and what
they have taken down is then related as the family says (`Family.Kept`).

Parses that go abreast may part. Where one of them tolerates errors and
another does not, the first error sends them different ways; but then
both have an error to show, or are about to. A family says by which
problems taken down it is known that a parse may be **apart** from the
others. Problems are never taken back, so a parse that is apart stays so,
and of a parse that is apart nothing more is claimed.
-/

namespace ScriptTree

/-! ## What is taken down -/

/-- The problems with another one, as far as there is room for it. -/
def Options.added (options : Options) (ds : List Diagnostic)
    (d : Diagnostic) : List Diagnostic :=
  if options.maxDiagnostics ≤ ds.length then ds else ds ++ [d]

/-- A problem at a place of the text. -/
def Context.problem (ctx : Context) (kind : DiagnosticKind)
    (severity : Severity) (message : String) (span : Span) : Diagnostic where
  kind := kind
  severity := severity
  message := message
  span := span
  position := positionAt ctx.source span.start

/-- No problem is taken back for another one. -/
theorem Options.isPrefix_added (options : Options) (ds : List Diagnostic)
    (d : Diagnostic) : ds <+: options.added ds d := by
  unfold added
  split
  · exact List.prefix_rfl
  · exact List.prefix_append ds [d]

/-- A problem is among those taken down, if there is room for it. -/
theorem Options.mem_added (options : Options) (ds : List Diagnostic)
    (d : Diagnostic) :
    d ∈ options.added ds d
      ∨ options.maxDiagnostics ≤ (options.added ds d).length := by
  unfold added
  split
  · exact .inr ‹_›
  · exact .inl (List.mem_append_right ds (List.mem_singleton_self d))

namespace State

/-- The problems taken down. -/
abbrev problems (s : State) : List Diagnostic := s.diagnostics.toList

/-- **A state with more problems than another.** -/
structure Grows (ctx : Context) (s t : State) : Prop where
  /-- No problem is taken back. -/
  isPrefix : s.problems <+: t.problems
  /-- A tolerant parse goes on. -/
  aborted_eq : ctx.options.tolerant = true → t.aborted = s.aborted

namespace Grows

variable {ctx : Context} {s t u : State}

/-- What stays as it is has as many problems. -/
theorem refl (ctx : Context) (s : State) : s.Grows ctx s :=
  ⟨List.prefix_rfl, fun _ => rfl⟩

/-- What has more problems than something with more has more. -/
theorem trans (h₁ : s.Grows ctx t) (h₂ : t.Grows ctx u) : s.Grows ctx u :=
  ⟨h₁.isPrefix.trans h₂.isPrefix,
    fun h => (h₂.aborted_eq h).trans (h₁.aborted_eq h)⟩

/-- Nothing but the problems and whether the parse has ended matters. -/
theorem of_eq (hproblems : t.problems = s.problems)
    (haborted : t.aborted = s.aborted) : s.Grows ctx t :=
  ⟨hproblems ▸ List.prefix_rfl, fun _ => haborted⟩

end Grows

variable (ctx : Context) (s : State)

/-- A problem is taken down where there is room for it. -/
theorem report_problems (kind : DiagnosticKind) (severity : Severity)
    (message : String) (span : Span) (h : s.aborted = false) :
    (s.report ctx kind severity message span).problems
      = ctx.options.added s.problems
        (ctx.problem kind severity message span) := by
  unfold report Options.added
  rw [h, Bool.false_or]
  by_cases hfull : s.diagnostics.size ≥ ctx.options.maxDiagnostics
  · rw [if_pos (decide_eq_true hfull)]
    exact (if_pos hfull).symm
  · rw [if_neg (fun h => hfull (of_decide_eq_true h))]
    refine Eq.trans ?_ (if_neg hfull).symm
    simp [problems, Context.problem]

/-- **A problem is taken down**, or there is no room for it. -/
theorem report_grows (kind : DiagnosticKind) (severity : Severity)
    (message : String) (span : Span) :
    s.Grows ctx (s.report ctx kind severity message span) := by
  by_cases h : s.aborted = true
  · rw [show s.report ctx kind severity message span = s from
      if_pos (by rw [h]; rfl)]
    exact .refl ctx s
  · rw [Bool.not_eq_true] at h
    refine ⟨?_, fun htolerant => ?_⟩
    · rw [report_problems ctx s kind severity message span h]
      exact ctx.options.isPrefix_added _ _
    · unfold report
      split
      · rfl
      · simp [htolerant, h]

/-- An error that was taken down with its token is not taken down again. -/
theorem reportError_grows (kind : DiagnosticKind) (error : ParseError) :
    s.Grows ctx (s.reportError ctx kind error) := by
  unfold reportError
  split
  · exact .refl ctx s
  · exact report_grows ctx s ..

/-- What is wrong with a token is one problem or none. -/
theorem reportToken_grows (token : Token) :
    s.Grows ctx (s.reportToken ctx token) := by
  unfold reportToken
  split
  · exact report_grows ctx s ..
  · exact .refl ctx s

/-- A token that is passed over may have something wrong with it. -/
theorem passExtra_grows (token : Token) :
    s.Grows ctx (s.passExtra ctx token) := by
  unfold passExtra
  split
  · exact .of_eq rfl rfl
  · refine (reportToken_grows ctx s token).trans ?_
    dsimp only
    split
    · exact .of_eq rfl rfl
    · exact .refl ctx _

/-- So may several. -/
theorem foldl_passExtra_grows (extras : List Token) :
    s.Grows ctx (extras.foldl (passExtra ctx) s) := by
  induction extras generalizing s with
  | nil => exact .refl ctx s
  | cons x extras ih => exact (passExtra_grows ctx s x).trans (ih _)

/-- **Reading a token** takes no problem back. -/
theorem bump_grows : s.Grows ctx (s.bump ctx) := by
  have h₁ := foldl_passExtra_grows ctx
    { s with
      scanner := s.scanner.nextSignificant.scanner
      consumedTo := s.current.span.stop
      taken := s.current :: s.taken
      newlineBefore := false } s.scanner.nextSignificant.extras
  have h₂ := reportToken_grows ctx
    (s.scanner.nextSignificant.extras.foldl (passExtra ctx)
      { s with
        scanner := s.scanner.nextSignificant.scanner
        consumedTo := s.current.span.stop
        taken := s.current :: s.taken
        newlineBefore := false }) s.scanner.nextSignificant.token
  exact ⟨(h₁.trans h₂).isPrefix, (h₁.trans h₂).aborted_eq⟩

/-- Reading it again takes none back either. -/
theorem rescanRegex_grows : s.Grows ctx (s.rescanRegex ctx) := by
  have h := reportToken_grows ctx
    { s with scanner := (s.scanner.rescanRegex s.current).2 }
    (s.scanner.rescanRegex s.current).1
  exact ⟨h.isPrefix, h.aborted_eq⟩

end State

/-! ## Families -/

/-- **A family of parses** of one text, each with options of its own. -/
structure Family (ι : Type) where
  /-- The options of each parse. -/
  options : ι → Options
  /-- Whether an error puts all parses apart. -/
  strict : Prop
  /-- How the problems and the comments of parses that go abreast are
  related. -/
  Kept : (ι → List Diagnostic) → (ι → List Comment) → Prop
  /-- Whether the problems of a parse tell that it may be apart from the
  others. -/
  Apart : ι → List Diagnostic → Prop
  /-- Whether an error will put a parse apart when it is taken down. -/
  Parts : ι → ParseError → Prop
  /-- All parses begin with nothing taken down. -/
  kept_nil : Kept (fun _ => []) (fun _ => [])
  /-- A problem taken down by all parses keeps them abreast or puts them
  apart. -/
  kept_added {ds : ι → List Diagnostic} {cs : ι → List Comment}
    (h : Kept ds cs) (d : Diagnostic) :
    Kept (fun i => (options i).added (ds i) d) cs
      ∨ ∀ i, Apart i ((options i).added (ds i) d)
  /-- A warning about a missing terminator may be taken down by those
  parses alone that do not allow for it. -/
  kept_trailing {ds : ι → List Diagnostic} {cs : ι → List Comment}
    (h : Kept ds cs) (d : Diagnostic) (hkind : d.kind = .structural)
    (hseverity : d.severity = .warning) :
    Kept (fun i => if (options i).allowTrailingStatement then ds i
        else (options i).added (ds i) d) cs
      ∨ ∀ i, Apart i (if (options i).allowTrailingStatement then ds i
        else (options i).added (ds i) d)
  /-- A comment is taken down by the parses that keep comments. -/
  kept_comment {ds : ι → List Diagnostic} {cs : ι → List Comment}
    (h : Kept ds cs) (c : Comment) :
    Kept ds (fun i => if (options i).collectComments then cs i ++ [c]
      else cs i)
  /-- An error puts the parses of a strict family apart. -/
  apart_of_isError (hstrict : strict) {i : ι} (ds : List Diagnostic)
    {d : Diagnostic} (h : d.isError = true) :
    Apart i ((options i).added ds d)
  /-- Such an error has not been taken down already. -/
  isLexical_of_parts {i : ι} {error : ParseError} (h : Parts i error) :
    error.isLexical = false
  /-- Once it is taken down the parse is apart. -/
  apart_of_parts {i : ι} {error : ParseError} (h : Parts i error)
    (ds : List Diagnostic) {d : Diagnostic} (hd : d.isError = true)
    (hmessage : d.message = error.message) :
    Apart i ((options i).added ds d)
  /-- A parse that is apart stays so. -/
  apart_mono {i : ι} {ds ds' : List Diagnostic} (h : ds <+: ds')
    (hapart : Apart i ds) : Apart i ds'
  /-- An error that is still to be taken down puts the parses of a strict
  family apart. -/
  parts_of_strict (hstrict : strict) (i : ι) {error : ParseError}
    (h : error.isLexical = false) : Parts i error
  /-- Only the parses of a strict family may differ in whether they
  tolerate errors. -/
  tolerant_eq (h : ¬strict) (i : ι) : (options i).tolerant = true

/-- **Where a state stands**: the state with nothing taken down. -/
def State.place (s : State) : State :=
  { s with diagnostics := #[], comments := #[], events := #[] }

namespace Family

variable {ι : Type} (F : Family ι)

/-- **States of parses that go abreast**, all of them where `u`
stands. -/
structure Together (u : State) (s : ι → State) : Prop where
  /-- They stand at the same place. -/
  place_eq (i : ι) : (s i).place = u.place
  /-- None of the parses has ended. -/
  going : u.aborted = false
  /-- In a strict family nothing is wrong with the current token. -/
  clear : F.strict → u.current.error = none
  /-- What has been taken down is as it should be. -/
  kept : F.Kept (fun i => (s i).problems) (fun i => (s i).comments.toList)

/-- **Whether a parse is apart from the others**, or has failed with an
error that will put it apart. -/
def Leaves {α : Type} (i : ι) (r : Except ParseError α × State) : Prop :=
  F.Apart i r.2.problems
    ∨ ∃ e, r.1 = .error e ∧ F.Parts i e ∧ r.2.aborted = false

end Family

end ScriptTree
