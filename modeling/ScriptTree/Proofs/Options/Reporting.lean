import ScriptTree.Proofs.Abreast.Script

/-!
# What is reported of what is found

How many problems are kept, whether comments are, and whether the last
statement of a list needs a terminator: none of this has any influence on
the tree. Parses that differ in nothing else find the same things
(`Findings`), and each reports what its options ask for.

Since this is about all choices of these options at once, the family has a
parse for each. What they have taken down at any time comes from the same
list of comments and the same list of problems; only of the warnings about
missing terminators there are more where the last statement needs one.
-/

namespace ScriptTree

/-! ## Lists with more in them -/

/-- **A list interspersed with elements of some kind.** -/
inductive Interspersed {α : Type} (P : α → Prop) :
    List α → List α → Prop where
  /-- Both are at an end. -/
  | nil : Interspersed P [] []
  /-- An element of the list comes next. -/
  | keep (a : α) {xs ys : List α} (h : Interspersed P xs ys) :
      Interspersed P (a :: xs) (a :: ys)
  /-- An element of the kind comes next. -/
  | insert {a : α} (ha : P a) {xs ys : List α} (h : Interspersed P xs ys) :
      Interspersed P xs (a :: ys)

/-- Lists are interspersed part by part. -/
theorem Interspersed.append {α : Type} {P : α → Prop}
    {xs ys xs' ys' : List α} (h : Interspersed P xs ys)
    (h' : Interspersed P xs' ys') :
    Interspersed P (xs ++ xs') (ys ++ ys') := by
  induction h with
  | nil => exact h'
  | keep a _ ih => exact .keep a ih
  | insert ha _ ih => exact .insert ha ih

/-- The first problems with another one, as far as there is room, are the
first of all problems. -/
theorem Options.added_take (o : Options) (ds : List Diagnostic)
    (d : Diagnostic) :
    o.added (ds.take o.maxDiagnostics) d
      = (ds ++ [d]).take o.maxDiagnostics := by
  unfold added
  rw [List.length_take]
  split
  · rw [List.take_append_of_le_length (by omega)]
  · rw [List.take_of_length_le (by omega), List.take_of_length_le]
    rw [List.length_append, List.length_singleton]
    omega

/-! ## What is found and what is reported -/

/-- **A warning that something is missing** in the structure of a
script. -/
def Diagnostic.IsStructuralWarning (d : Diagnostic) : Prop :=
  d.kind = .structural ∧ d.severity = .warning

/-- **All that a parse finds in a script**, whatever is reported of it. -/
structure Findings where
  /-- The statements. -/
  body : List Statement
  /-- The comments. -/
  comments : List Comment
  /-- The problems, if the last statement of a list may do without its
  terminator, and if it may not. -/
  problems : Bool → List Diagnostic

namespace Findings

/-- The comments that are reported. -/
def commentsFor (f : Findings) (o : Options) : List Comment :=
  if o.collectComments then f.comments else []

/-- The problems that are reported. -/
def problemsFor (f : Findings) (o : Options) : List Diagnostic :=
  (f.problems o.allowTrailingStatement).take o.maxDiagnostics

/-- **What is reported of a script** for given options. -/
def outcome (f : Findings) (source : List Char) (o : Options) :
    Outcome where
  program := ⟨f.body, f.commentsFor o, ⟨0, byteLength source⟩⟩
  diagnostics := f.problemsFor o

/-- **Findings in which only warnings depend on the options**: where the
last statement of a list needs a terminator there are more of them. -/
def Coherent (f : Findings) : Prop :=
  Interspersed Diagnostic.IsStructuralWarning (f.problems true)
    (f.problems false)

/-- A problem is found, whatever the options. -/
def addProblem (f : Findings) (d : Diagnostic) : Findings :=
  { f with problems := fun b => f.problems b ++ [d] }

/-- A warning is found by those who look for it. -/
def addTrailing (f : Findings) (d : Diagnostic) : Findings :=
  { f with
    problems := fun b => if b then f.problems b else f.problems b ++ [d] }

/-- A comment is found. -/
def addComment (f : Findings) (c : Comment) : Findings :=
  { f with comments := f.comments ++ [c] }

variable {f : Findings}

/-- A problem that is found whatever the options keeps findings coherent. -/
theorem Coherent.addProblem (h : f.Coherent) (d : Diagnostic) :
    (f.addProblem d).Coherent := h.append (.keep d .nil)

/-- So does a warning that only some look for. -/
theorem Coherent.addTrailing (h : f.Coherent) {d : Diagnostic}
    (hd : d.IsStructuralWarning) : (f.addTrailing d).Coherent := by
  have h := h.append (.insert hd .nil)
  rw [List.append_nil] at h
  exact h

/-- **A problem found is reported** as long as there is room. -/
theorem problemsFor_addProblem (o : Options) (d : Diagnostic) :
    (f.addProblem d).problemsFor o = o.added (f.problemsFor o) d :=
  (o.added_take _ d).symm

/-- A warning is reported to those who look for it. -/
theorem problemsFor_addTrailing (o : Options) (d : Diagnostic) :
    (f.addTrailing d).problemsFor o
      = if o.allowTrailingStatement then f.problemsFor o
        else o.added (f.problemsFor o) d := by
  unfold problemsFor addTrailing
  dsimp only
  split
  · rfl
  · exact (o.added_take _ d).symm

/-- A comment is reported to those who keep comments. -/
theorem commentsFor_addComment (o : Options) (c : Comment) :
    (f.addComment c).commentsFor o
      = if o.collectComments then f.commentsFor o ++ [c]
        else f.commentsFor o := by
  unfold commentsFor addComment
  split <;> rfl

end Findings

/-! ## The family -/

/-- **The options of parses that differ in what they report**: they all
tolerate errors, and constructs may nest equally deep. -/
structure Reporting (depth : Nat) where
  /-- The options. -/
  options : Options
  /-- They tolerate errors. -/
  tolerant_eq : options.tolerant = true
  /-- They have the given nesting limit. -/
  maxNestingDepth_eq : options.maxNestingDepth = depth

/-- **What parses have taken down** if they have found the same things. -/
structure Findings.Reported (f : Findings) {depth : Nat}
    (ds : Reporting depth → List Diagnostic)
    (cs : Reporting depth → List Comment) : Prop where
  /-- The findings are coherent. -/
  coherent : f.Coherent
  /-- Each has taken down the problems its options ask for. -/
  problems_eq (o : Reporting depth) : ds o = f.problemsFor o.options
  /-- Each has taken down the comments its options ask for. -/
  comments_eq (o : Reporting depth) : cs o = f.commentsFor o.options

namespace Findings.Reported

variable {depth : Nat} {f : Findings}
  {ds : Reporting depth → List Diagnostic}
  {cs : Reporting depth → List Comment} (h : f.Reported ds cs)

include h

/-- Another problem is taken down by all parses. -/
theorem addProblem (d : Diagnostic) :
    (f.addProblem d).Reported (fun o => o.options.added (ds o) d) cs where
  coherent := h.coherent.addProblem d
  problems_eq o := by rw [problemsFor_addProblem, h.problems_eq]
  comments_eq := h.comments_eq

/-- A warning is taken down by those that look for it. -/
theorem addTrailing {d : Diagnostic} (hd : d.IsStructuralWarning) :
    (f.addTrailing d).Reported
      (fun o => if o.options.allowTrailingStatement then ds o
        else o.options.added (ds o) d) cs where
  coherent := h.coherent.addTrailing hd
  problems_eq o := by rw [problemsFor_addTrailing, h.problems_eq]
  comments_eq := h.comments_eq

/-- A comment is taken down by those that keep comments. -/
theorem addComment (c : Comment) :
    (f.addComment c).Reported ds
      (fun o => if o.options.collectComments then cs o ++ [c] else cs o) where
  coherent := h.coherent
  problems_eq := h.problems_eq
  comments_eq o := by rw [commentsFor_addComment, h.comments_eq]

end Findings.Reported

/-- **The parses that differ in what they report.** None is ever apart
from the others. -/
def reportingFamily (depth : Nat) : Family (Reporting depth) where
  options := Reporting.options
  strict := False
  Kept ds cs := ∃ f : Findings, f.Reported ds cs
  Apart _ _ := False
  Parts _ _ := False
  kept_nil := ⟨⟨[], [], fun _ => []⟩, .nil, fun _ => List.take_nil.symm,
    fun _ => (ite_self []).symm⟩
  kept_added := fun ⟨_, h⟩ d => .inl ⟨_, h.addProblem d⟩
  kept_trailing := fun ⟨_, h⟩ _ hkind hseverity =>
    .inl ⟨_, h.addTrailing ⟨hkind, hseverity⟩⟩
  kept_comment := fun ⟨_, h⟩ c => ⟨_, h.addComment c⟩
  apart_of_isError h := h.elim
  isLexical_of_parts h := h.elim
  apart_of_parts h := h.elim
  apart_mono _ h := h
  parts_of_strict h := h.elim
  tolerant_eq _ o := o.tolerant_eq

/-- **Reporting has no influence on the tree.** For parses that tolerate
errors and have the same nesting limit there are findings from which each
reports what its options ask for: the comments or none, and as many of the
problems as it keeps. -/
theorem parseWith_reports (depth : Nat) (table : OperatorTable)
    (source : List Char) :
    ∃ f : Findings, f.Coherent ∧ ∀ o : Options, o.tolerant = true →
      o.maxNestingDepth = depth →
      parseWith o table source = f.outcome source o := by
  cases runScript_abreast (F := reportingFamily depth)
    (Grammar.levels_abreast Reporting.maxNestingDepth_eq) source table with
  | apart leaves =>
    exact (leaves ⟨{ Options.standard with maxNestingDepth := depth },
      rfl, rfl⟩).elim
  | @answer body u t run together =>
    obtain ⟨f, h⟩ := together.kept
    refine ⟨{ f with body := body }, h.coherent,
      fun o htolerant hdepth => ?_⟩
    have hrun : runScript source o table = (body, _) :=
      run ⟨o, htolerant, hdepth⟩
    unfold parseWith
    rw [hrun]
    exact congrArg₂ (fun cs ds =>
        Outcome.mk ⟨body, cs, ⟨0, byteLength source⟩⟩ ds)
      (h.comments_eq ⟨o, htolerant, hdepth⟩)
      (h.problems_eq ⟨o, htolerant, hdepth⟩)

/-- A statement without a terminator, and a comment: what two parses find
of which one keeps comments and the other is strict about terminators. -/
theorem parseWith_reports_trailing :
    ∃ f : Findings, f.Coherent
      ∧ parseWith .standard .standard "a /* b */".toList
        = f.outcome "a /* b */".toList .standard
      ∧ parseWith ⟨true, false, false, 7, 128⟩ .standard "a /* b */".toList
        = f.outcome "a /* b */".toList ⟨true, false, false, 7, 128⟩ := by
  obtain ⟨f, hf, hall⟩ :=
    parseWith_reports 128 .standard "a /* b */".toList
  exact ⟨f, hf, hall _ rfl rfl, hall _ rfl rfl⟩

end ScriptTree
