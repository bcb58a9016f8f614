import ScriptTree.Proofs.Abreast.Logic

/-!
# Tokens and problems abreast

The actions that every production is made of, for parses that go abreast.
Those that only look show all parses the same. Those that take something
down leave the parses abreast or put them apart (`Family.Keeps`), and it
is the family that says which: nothing below knows what the options are.
-/

namespace ScriptTree

variable {ι : Type} {F : Family ι} {K : Prop} {α : Type}

/-! ## States -/

namespace State

variable (ctx : Context) (s : State)

/-- **Taking down a problem** moves no parse, as long as it does not end
it. -/
theorem report_place (kind : DiagnosticKind) {severity : Severity}
    (message : String) (span : Span) (hgoing : s.aborted = false)
    (h : severity = .error → ctx.options.tolerant = true) :
    (s.report ctx kind severity message span).place = s.place := by
  have haborted :
      (decide (severity = .error) && !ctx.options.tolerant) = s.aborted := by
    rw [hgoing]
    cases severity with
    | error => rw [h rfl]; rfl
    | warning => rfl
  unfold report
  split
  · rfl
  · rw [haborted]
    rfl

theorem report_comments (kind : DiagnosticKind) (severity : Severity)
    (message : String) (span : Span) :
    (s.report ctx kind severity message span).comments = s.comments := by
  unfold report
  split <;> rfl

variable {token : Token} (h : token.kind ≠ .lineBreak)

include h

theorem passExtra_problems :
    (s.passExtra ctx token).problems = (s.reportToken ctx token).problems := by
  unfold passExtra
  rw [if_neg h]
  dsimp only
  split <;> rfl

theorem passExtra_place :
    (s.passExtra ctx token).place = (s.reportToken ctx token).place := by
  unfold passExtra
  rw [if_neg h]
  dsimp only
  split <;> rfl

/-- **A comment is kept** where comments are. -/
theorem passExtra_comments :
    (s.passExtra ctx token).comments.toList
      = if ctx.options.collectComments then
          (s.reportToken ctx token).comments.toList ++ [commentOf token]
        else (s.reportToken ctx token).comments.toList := by
  unfold passExtra
  rw [if_neg h]
  dsimp only
  split
  · exact Array.toList_push
  · rfl

end State

namespace Family

variable {c : Context} {u v : State} {s t : ι → State}

/-- **States of parses that go abreast or are apart.** -/
def Keeps (F : Family ι) (u : State) (s : ι → State) : Prop :=
  F.Together u s ∨ ∀ i, F.Apart i (s i).problems

/-- What parses that go abreast do next. Those that are apart stay so. -/
theorem Keeps.next (h : F.Keeps u s) {k : ι → Context}
    (hgrows : ∀ i, (s i).Grows (k i) (t i))
    (hnext : F.Together u s → F.Keeps v t) : F.Keeps v t :=
  h.elim hnext
    (fun h => .inr (fun i => F.apart_mono (hgrows i).isPrefix (h i)))

/-- An action that all parses end with the same answer. -/
theorem Keeps.ends {r : ι → Except ParseError α × State} {a : α}
    (h : F.Keeps u t) (hrun : ∀ i, r i = (.ok a, t i)) : F.Ends r := by
  rcases h with h | h
  · exact .answer hrun h
  · refine .apart fun i => .inl ?_
    rw [hrun i]
    exact h i

namespace Together

/-- **Parses that move alike** and take nothing down. -/
theorem move (h : F.Together u s) {f : State → State}
    (hplace : ∀ s, (f s).place = (f s.place).place)
    (hproblems : ∀ s, (f s).problems = s.problems)
    (hcomments : ∀ s, (f s).comments = s.comments)
    (hgoing : (f u).aborted = false)
    (hclear : F.strict → (f u).current.error = none) :
    F.Together (f u) (fun i => f (s i)) where
  place_eq i := by rw [hplace, h.place_eq, ← hplace]
  going := hgoing
  clear := hclear
  kept := by
    simp only [hproblems, hcomments]
    exact h.kept

/-- **A problem is taken down by all parses.** -/
theorem report (h : F.Together u s) (c : Context) (kind : DiagnosticKind)
    (severity : Severity) (message : String) (span : Span) :
    F.Keeps u (fun i => (s i).report (c.withOptions (F.options i)) kind
      severity message span) := by
  have hproblems (i : ι) := State.report_problems
    (c.withOptions (F.options i)) (s i) kind severity message span
    (h.aborted_eq i)
  by_cases hparts : F.strict ∧ severity = .error
  · refine .inr (fun i => ?_)
    rw [hproblems]
    exact F.apart_of_isError hparts.1 _ (decide_eq_true hparts.2)
  · rcases F.kept_added h.kept (c.problem kind severity message span)
      with hkept | hapart
    · refine .inl ⟨fun i => ?_, h.going, h.clear, ?_⟩
      · refine (State.report_place _ _ kind message span (h.aborted_eq i)
          (fun herror => ?_)).trans (h.place_eq i)
        exact F.tolerant_eq (fun hstrict => hparts ⟨hstrict, herror⟩) i
      · simp only [hproblems, State.report_comments]
        exact hkept
    · refine .inr (fun i => ?_)
      rw [hproblems]
      exact hapart i

/-- **What is wrong with a token** is taken down by all parses. If they go
on abreast in a strict family, nothing is. -/
theorem reportToken (h : F.Together u s) (c : Context) (token : Token) :
    F.Keeps u (fun i =>
        (s i).reportToken (c.withOptions (F.options i)) token)
      ∧ ((F.strict → token.error = none) ∨ ∀ i, F.Apart i
        ((s i).reportToken (c.withOptions (F.options i)) token).problems) := by
  unfold State.reportToken
  cases token.error with
  | none => exact ⟨.inl h, .inl fun _ => rfl⟩
  | some error =>
    refine ⟨h.report c .lexical .error error.message token.span, ?_⟩
    by_cases hstrict : F.strict
    · refine .inr (fun i => ?_)
      dsimp only
      rw [State.report_problems _ _ _ _ _ _ (h.aborted_eq i)]
      exact F.apart_of_isError hstrict _ rfl
    · exact .inl (fun h => absurd h hstrict)

/-- **A comment or a line break** is passed by all parses. -/
theorem passExtra (h : F.Together u s) (c : Context) (token : Token) :
    ∃ b, F.Keeps { u with newlineBefore := b }
      (fun i => (s i).passExtra (c.withOptions (F.options i)) token) := by
  by_cases hkind : token.kind = .lineBreak
  · refine ⟨true, .inl ?_⟩
    simp only [State.passExtra, if_pos hkind]
    exact h.move (f := fun s => { s with newlineBefore := true })
      (fun _ => rfl) (fun _ => rfl) (fun _ => rfl) h.going h.clear
  · refine ⟨u.newlineBefore, ?_⟩
    have hproblems (i : ι) := State.passExtra_problems
      (c.withOptions (F.options i)) (s i) hkind
    rcases (h.reportToken c token).1 with h | h
    · refine .inl ⟨fun i => ?_, h.going, h.clear, ?_⟩
      · exact (State.passExtra_place _ _ hkind).trans (h.place_eq i)
      · simp only [hproblems, State.passExtra_comments _ _ hkind]
        exact F.kept_comment h.kept (State.commentOf token)
    · refine .inr (fun i => ?_)
      rw [hproblems]
      exact h i

/-- **All that stands before the next token** is passed. -/
theorem passExtras (h : F.Together u s) (c : Context)
    (extras : List Token) :
    ∃ b, F.Keeps { u with newlineBefore := b } (fun i =>
      extras.foldl (State.passExtra (c.withOptions (F.options i))) (s i)) := by
  induction extras generalizing u s with
  | nil => exact ⟨u.newlineBefore, .inl h⟩
  | cons x extras ih =>
    obtain ⟨b, h | h⟩ := h.passExtra c x
    · obtain ⟨b', h⟩ := ih h
      exact ⟨b', h⟩
    · exact ⟨b, .inr (fun i => F.apart_mono
        (State.foldl_passExtra_grows _ _ extras).isPrefix (h i))⟩

/-- **Another token becomes current** in all parses, and what is wrong
with it is taken down. -/
theorem turnTo (h : F.Together u s) (c : Context) (token : Token) :
    F.Keeps { u with current := token } (fun i =>
      { (s i).reportToken (c.withOptions (F.options i)) token with
        current := token }) := by
  obtain ⟨h | h, hclear⟩ := h.reportToken c token
  · rcases hclear with hclear | hapart
    · exact .inl (h.move (f := fun s => { s with current := token })
        (fun _ => rfl) (fun _ => rfl) (fun _ => rfl) h.going hclear)
    · exact .inr hapart
  · exact .inr h

/-- **All parses move on to the next token.** -/
theorem bump (h : F.Together u s) (c : Context) :
    ∃ v, F.Keeps v (fun i => (s i).bump (c.withOptions (F.options i))) := by
  have hstep := h.move (f := fun s =>
      { s with
        scanner := s.scanner.nextSignificant.scanner
        consumedTo := s.current.span.stop
        taken := s.current :: s.taken
        newlineBefore := false })
    (fun _ => rfl) (fun _ => rfl) (fun _ => rfl) h.going h.clear
  have hscanner (i : ι) : (s i).scanner = u.scanner :=
    h.eq (f := State.scanner) (fun _ => rfl) i
  unfold State.bump
  simp only [hscanner] at hstep ⊢
  obtain ⟨b, hb⟩ := hstep.passExtras c u.scanner.nextSignificant.extras
  exact ⟨_, hb.next (k := fun i => c.withOptions (F.options i))
    (fun i => (State.reportToken_grows _ _ _).trans (.of_eq rfl rfl))
    (fun h => h.turnTo c u.scanner.nextSignificant.token)⟩

/-- **All parses read a slash again** as a regular expression. -/
theorem rescanRegex (h : F.Together u s) (c : Context) :
    ∃ v, F.Keeps v
      (fun i => (s i).rescanRegex (c.withOptions (F.options i))) := by
  have hstep := h.move (f := fun s =>
      { s with scanner := (s.scanner.rescanRegex s.current).2 })
    (fun _ => rfl) (fun _ => rfl) (fun _ => rfl) h.going h.clear
  have hscanner (i : ι) : (s i).scanner = u.scanner :=
    h.eq (f := State.scanner) (fun _ => rfl) i
  have hcurrent (i : ι) : (s i).current = u.current :=
    h.eq (f := State.current) (fun _ => rfl) i
  unfold State.rescanRegex
  simp only [hscanner, hcurrent] at hstep ⊢
  exact ⟨_, hstep.turnTo c _⟩

/-- **A warning about a missing terminator** is taken down by those parses
that do not allow for it. -/
theorem reportTrailing (h : F.Together u s) (c : Context)
    (message : String) (span : Span) :
    F.Keeps u (fun i =>
      if (F.options i).allowTrailingStatement then s i
      else (s i).report (c.withOptions (F.options i)) .structural .warning
        message span) := by
  have hproblems (i : ι) :
      (if (F.options i).allowTrailingStatement then s i
        else (s i).report (c.withOptions (F.options i)) .structural .warning
          message span).problems
      = if (F.options i).allowTrailingStatement then (s i).problems
        else (F.options i).added (s i).problems
          (c.problem .structural .warning message span) := by
    split
    · rfl
    · exact State.report_problems _ _ _ _ _ _ (h.aborted_eq i)
  rcases F.kept_trailing h.kept
    (c.problem .structural .warning message span) rfl rfl with hkept | hapart
  · refine .inl ⟨fun i => ?_, h.going, h.clear, ?_⟩
    · split
      · exact h.place_eq i
      · refine (State.report_place _ _ _ message span (h.aborted_eq i)
          (fun h : Severity.warning = .error => nomatch h)).trans
          (h.place_eq i)
    · have hcomments (i : ι) :
          (if (F.options i).allowTrailingStatement then s i
            else (s i).report (c.withOptions (F.options i)) .structural
              .warning message span).comments = (s i).comments := by
        split
        · rfl
        · exact State.report_comments ..
      simp only [hproblems, hcomments]
      exact hkept
  · refine .inr (fun i => ?_)
    rw [hproblems]
    exact hapart i

end Together

end Family

/-- **An error that puts a parse apart** does so when it is taken down. -/
theorem Family.apart_reportError {i : ι} {error : ParseError} {c : Context}
    {s : State} (h : F.Parts i error) (kind : DiagnosticKind)
    (hs : s.aborted = false) :
    F.Apart i (s.reportError (c.withOptions (F.options i)) kind
      error).problems := by
  rw [show s.reportError (c.withOptions (F.options i)) kind error
      = s.report _ kind .error error.message error.span from
    if_neg (Bool.eq_false_iff.1 (F.isLexical_of_parts h))]
  rw [State.report_problems _ _ _ _ _ _ hs]
  exact F.apart_of_parts h _ rfl rfl

namespace Parse

open ScriptTree.Action

/-- What becomes of the last statement of a list without a terminator. -/
theorem trailing_run (ctx : Context) (s : State) :
    ((do
        if (← read).options.allowTrailingStatement then return
        else reportMissingTerminator true : Action Unit) ctx s).2
      = if ctx.options.allowTrailingStatement then s
        else if (ParseError.ofToken "';' or line break"
            s.current).isLexical then s
        else s.report ctx .structural .warning
          (missingTerminatorMessage s.current
            (.ofToken "';' or line break" s.current))
          (ParseError.ofToken "';' or line break" s.current).span := by
  show ((ite _ _ _ : Action Unit) ctx s).2 = _
  split
  · rfl
  · show ((ite _ _ _ : Action Unit) ctx s).2 = _
    split <;> rfl

namespace Abreast

/-! ## Moving on -/

theorem advance : Abreast F K fun _ => (liftM advance : Parse Token) where
  grows _ _ s := s.bump_grows _
  ends _ c u s hs := by
    obtain ⟨v, hv⟩ := hs.bump c
    refine hv.ends (a := u.current) fun i => ?_
    have hcurrent := hs.eq (f := State.current) (fun _ => rfl) i
    exact congrArg (fun token => (Except.ok token, _)) hcurrent

/-- **The token that is read** was current, and nothing is wrong with it in
a strict family. -/
theorem take {f : ι → Token → Parse α}
    (hf : ∀ token, Abreast F (K ∧ token.error = none) fun i => f i token) :
    Abreast F K fun i => liftM Action.advance >>= f i where
  grows i c s := (s.bump_grows _).trans ((hf s.current).grows i c _)
  ends h c u s hs := by
    have hcurrent (i : ι) : (s i).current = u.current :=
      hs.eq (f := State.current) (fun _ => rfl) i
    have hrun (i : ι) (ctx : Context) :
        (liftM Action.advance >>= f i) ctx (s i)
          = f i u.current ctx ((s i).bump ctx) := by
      rw [← hcurrent i]
      rfl
    simp only [hrun]
    obtain ⟨v, hv | hv⟩ := hs.bump c
    · exact (hf u.current).ends
        (fun hstrict => ⟨h hstrict, hs.clear hstrict⟩) c hv
    · exact .apart fun i => .of_apart (hv i) ((hf _).grows i c _)

/-- **A slash is read again** as a regular expression. -/
theorem rescan {f : ι → Parse α} (hf : Abreast F K f) :
    Abreast F K fun i => (do
      modify (·.rescanRegex (← read))
      f i : Parse α) := by
  have hrescan (c : Context) : Abreast F K fun i =>
      (modify (·.rescanRegex (c.withOptions (F.options i))) :
        Parse PUnit) :=
    { grows := fun i _ s =>
        have h := s.rescanRegex_grows (c.withOptions (F.options i))
        ⟨h.isPrefix, h.aborted_eq⟩
      ends := fun _ _ _ _ hs => by
        obtain ⟨v, hv⟩ := hs.rescanRegex c
        exact hv.ends (a := ()) fun _ => rfl }
  exact .askOptions fun c => (hrescan c).bind fun _ => hf

/-! ## Taking down -/

theorem report (kind : DiagnosticKind) (severity : Severity)
    (message : String) (span : Span) :
    Abreast F K fun _ =>
      (liftM (Action.report kind severity message span) : Parse Unit) where
  grows _ _ s := s.report_grows _ kind severity message span
  ends _ c _ _ hs :=
    (hs.report c kind severity message span).ends (a := ()) fun _ => rfl

/-- **An error is taken down**, unless it has been with its token. -/
theorem reportError (kind : DiagnosticKind) (error : ParseError) :
    Abreast F K fun _ =>
      (liftM (Action.reportError kind error) : Parse Unit) where
  grows _ _ s := s.reportError_grows _ kind error
  ends _ c u s hs := by
    by_cases hlexical : error.isLexical = true
    · refine .answer (a := ()) (u := u) (t := s) (fun i => ?_) hs
      exact Prod.ext rfl (if_pos hlexical)
    · refine (hs.report c kind .error error.message error.span).ends
        (a := ()) fun i => ?_
      exact Prod.ext rfl (if_neg hlexical)

theorem record (event : Event) :
    Abreast F K fun _ => (liftM (Action.record event) : Parse Unit) where
  grows _ _ _ := .of_eq rfl rfl
  ends _ _ _ _ hs := .answer (a := ()) (fun _ => rfl)
    (hs.move (f := fun s => { s with events := s.events.push event })
      (fun _ => rfl) (fun _ => rfl) (fun _ => rfl) hs.going hs.clear)

/-- **The last statement of a list** may do without its terminator where
the options allow for it. A parse that does not allow for it takes down a
warning, and moves on like the others. -/
theorem trailing : Abreast F K fun _ => (liftM (do
    if (← read).options.allowTrailingStatement then return
    else reportMissingTerminator true : Action Unit) : Parse Unit) where
  grows i c s := by
    refine (congrArg (s.Grows _)
      (trailing_run (c.withOptions (F.options i)) s)).mpr ?_
    split
    · exact .refl _ s
    · split
      · exact .refl _ s
      · exact s.report_grows ..
  ends _ c u s hs := by
    let error := ParseError.ofToken "';' or line break" u.current
    have hcurrent (i : ι) : (s i).current = u.current :=
      hs.eq (f := State.current) (fun _ => rfl) i
    have hrun (i : ι) := trailing_run (c.withOptions (F.options i)) (s i)
    simp only [hcurrent] at hrun
    by_cases hlexical : error.isLexical = true
    · refine .answer (a := ()) (t := s) (fun i => ?_) hs
      refine congrArg (fun t => (Except.ok (), t)) ((hrun i).trans ?_)
      rw [if_pos hlexical, ite_self]
    · refine (hs.reportTrailing c (missingTerminatorMessage u.current error)
        error.span).ends (a := ()) fun i => ?_
      refine congrArg (fun t => (Except.ok (), t)) ((hrun i).trans ?_)
      rw [if_neg hlexical]
      rfl

/-! ## Levels -/

/-- **The nesting limit stops all parses alike** if it is the same for
all. -/
theorem tooDeep {limit : Nat}
    (hlimit : ∀ i, (F.options i).maxNestingDepth = limit) :
    Abreast F K fun _ => (tooDeep : Parse α) where
  grows _ _ s := .refl _ s
  ends _ c u s hs := by
    refine .failure (e := .tooDeep limit u.current.span) (t := s)
      (fun i => ?_) hs fun _ => rfl
    show (Except.error (ParseError.tooDeep (F.options i).maxNestingDepth
      (s i).current.span), s i) = _
    rw [hlimit, hs.eq (f := fun s => s.current.span) fun _ => rfl]

/-- **A level is entered and left by all parses.** -/
theorem guarded {p : ι → Parse α} (hp : Abreast F K p) :
    Abreast F K fun i => guarded (p i) where
  grows i c s := by
    have h := hp.grows i c s.enter
    rw [guarded_run]
    exact ⟨h.isPrefix, h.aborted_eq⟩
  ends h c u s hs := by
    have henter := hs.move (f := State.enter) (fun _ => rfl)
      (fun _ => rfl) (fun _ => rfl) hs.going hs.clear
    have hleave {v : State} {t : ι → State} (ht : F.Together v t) :=
      ht.move (f := State.leave) (fun _ => rfl) (fun _ => rfl)
        (fun _ => rfl) ht.going ht.clear
    simp only [guarded_run]
    cases hp.ends h c henter with
    | answer run ht => exact .answer (fun i => by rw [run]) (hleave ht)
    | failure run ht shows =>
      exact .failure (fun i => by rw [run]) (hleave ht) shows
    | apart leaves => exact .apart leaves

end Abreast

end Parse

end ScriptTree
