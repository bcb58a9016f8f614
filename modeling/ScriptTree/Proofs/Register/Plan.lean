import ScriptTree.Proofs.Plan.Grammar
import ScriptTree.Proofs.Register.Routine

/-!
# From productions to routines

A production is put together from others in a few ways, and its plan says
how (`Parse.Plan`). There is one rule for each way, and each rule is a way
to put together routines as well. So the routine of a production is read
off its plan (`Parse.Plan.routine`): where the plan says that a production
is between brackets, the register is set and set back there, where it says
that a level is entered, the routine for what is read there is called, and
all else is taken over as it is. The routine carries out the production,
whatever its plan (`Parse.Plan.carriesOut`).

With no level to go every routine looks at the limit and refuses. With one
more level it looks at the limit and does what the plans say, calling the
routines of one level less (`Grammar.routines`).
-/

namespace ScriptTree

variable {α β : Type} {n i : Nat}

/-! ## How routines carry out productions -/

namespace Routine.CarriesOut

theorem pure (a : α) :
    CarriesOut n 0 (Pure.pure a) (Pure.pure a : Parse α) :=
  .handing (.look fun _ _ => a)

/-- **What leaves the state as it is** only looks at it. -/
theorem look (x : Action α) (still : ∀ ctx s, (x ctx s).2 = s) :
    CarriesOut n 0 (.handing (liftM x)) (liftM x) := by
  have hrun : (liftM x : Parse α) = fun ctx s => (.ok (x ctx s).1, s) :=
    funext fun ctx => funext fun s => Prod.ext rfl (still ctx s)
  rw [hrun]
  exact .handing (.look fun ctx s => (x ctx s).1)

/-- A failure that is no refusal hands none on. -/
theorem throw {error : ParseError} (shallow : error.isTooDeep = false) :
    CarriesOut n 0 (MonadExcept.throw error)
      (MonadExcept.throw error : Parse α) := by
  have h : CarriesOut n error.refusals (MonadExcept.throw error)
      (MonadExcept.throw error : Parse α) := .handing (.throw error)
  rwa [ParseError.refusals_eq_zero shallow] at h

/-- What is behind a failure is not run. -/
theorem throwBind (error : ParseError) {rest : β → Routine α}
    {f : β → Parse α} :
    CarriesOut n error.refusals (MonadExcept.throw error >>= rest)
      (MonadExcept.throw error >>= f) :=
  .handing (.throw error)

theorem ite {c : Prop} [Decidable c] {q q' : Routine α} {p p' : Parse α}
    (hq : c → CarriesOut n i q p) (hq' : ¬c → CarriesOut n i q' p') :
    CarriesOut n i (if c then q else q') (if c then p else p') := by
  split
  · exact hq ‹c›
  · exact hq' ‹¬c›

/-- One action after another. -/
theorem lift_bind {q : Routine α} {rest : α → Routine β} {x : Action α}
    {f : α → Action β} (first : CarriesOut n i q (liftM x))
    (behind : ∀ a, CarriesOut n 0 (rest a) (liftM (f a))) :
    CarriesOut n i (q >>= rest) (liftM (x >>= f)) := .bind first behind

/-- What is handed to an action is left to the one behind it. -/
theorem lift_behind {q : Routine α} {rest : α → Routine β} {x : Action α}
    {f : α → Action β} (first : CarriesOut n 0 q (liftM x))
    (behind : ∀ a, CarriesOut n i (rest a) (liftM (f a))) :
    CarriesOut n i (q >>= rest) (liftM (x >>= f)) := .behind first behind

theorem lift_ite {c : Prop} [Decidable c] {q q' : Routine α}
    {x x' : Action α} (hq : CarriesOut n i q (liftM x))
    (hq' : CarriesOut n i q' (liftM x')) :
    CarriesOut n i (if c then q else q') (liftM (if c then x else x')) := by
  split
  · exact hq
  · exact hq'

theorem map {q : Routine α} {p : Parse α} (f : α → β)
    (hq : CarriesOut n i q p) : CarriesOut n i (f <$> q) (f <$> p) := by
  rw [map_eq_pure_bind, map_eq_pure_bind]
  exact .bind hq fun a => pure (f a)

end Routine.CarriesOut

/-! ## The routines of what plans are made of -/

namespace Routine

open ScriptTree.Action

/-- **The current token is read.** -/
def advance : Routine Token := do
  let token ← handing current
  let ctx ← handing read
  handing (modify (·.bump ctx))
  return token

theorem advance_carriesOut :
    CarriesOut n 0 advance (liftM Action.advance) :=
  .bind (.look _ fun _ _ => rfl) fun token =>
    .bind (.look read fun _ _ => rfl) fun ctx =>
      .bind (.handing (.bump ctx)) fun _ => .pure token

/-- A problem is taken down. -/
def report (kind : DiagnosticKind) (severity : Severity)
    (message : String) (span : Span) : Routine Unit := do
  let ctx ← handing read
  handing (modify (·.report ctx kind severity message span))

theorem report_carriesOut (kind : DiagnosticKind) (severity : Severity)
    (message : String) (span : Span) :
    CarriesOut n 0 (report kind severity message span)
      (liftM (Action.report kind severity message span)) :=
  .bind (.look read fun _ _ => rfl) fun ctx =>
    .handing (.report ctx kind severity message span)

/-- An error is taken down. -/
def reportError (kind : DiagnosticKind) (error : ParseError) :
    Routine Unit := do
  let ctx ← handing read
  handing (modify (·.reportError ctx kind error))

theorem reportError_carriesOut (kind : DiagnosticKind)
    (error : ParseError) :
    CarriesOut n 0 (reportError kind error)
      (liftM (Action.reportError kind error)) :=
  .bind (.look read fun _ _ => rfl) fun ctx =>
    .handing (.reportError ctx kind error)

/-- The last statement of a list has no terminator. -/
def trailing : Routine Unit := do
  let ctx ← handing read
  if ctx.options.allowTrailingStatement then return
  else
    let token ← handing current
    let error := ParseError.ofToken "';' or line break" token
    if error.isLexical then return
    else
      report .structural .warning
        (Parse.missingTerminatorMessage token error) error.span

theorem trailing_carriesOut :
    CarriesOut n 0 trailing (liftM (do
      if (← read).options.allowTrailingStatement then return
      else Parse.reportMissingTerminator true : Action Unit)) := by
  refine .lift_bind (.look read fun _ _ => rfl) fun ctx =>
    .lift_ite (.pure _) ?_
  refine .lift_bind (.look current fun _ _ => rfl) fun token => ?_
  exact .lift_ite (.pure _) (report_carriesOut ..)

/-! ## Going on after an error -/

/-- **Passes over tokens to the delimiter of a point.** -/
def skipTo (point : TolerantPoint) :
    (turns depth : Nat) → (taken : Bool) → Routine Bool
  | 0, _, taken => return taken
  | turns + 1, depth, taken => do
    let s ← handing get
    let ctx ← handing read
    let token := s.current
    let newline := s.newlineBefore && ctx.newlinesMatter
    if token.isEof then
      return taken
    else if depth = 0 && (token.kind.isCloser
        || (taken && point.syncsAt token newline)) then
      return taken
    else
      discard advance
      skipTo point turns (depthAfter token depth) true

theorem skipTo_carriesOut (point : TolerantPoint) (turns depth : Nat)
    (taken : Bool) :
    CarriesOut n 0 (skipTo point turns depth taken)
      (liftM (Parse.skipTo point turns depth taken)) := by
  induction turns generalizing depth taken with
  | zero => exact .pure taken
  | succ turns ih =>
    refine .lift_bind (.look get fun _ _ => rfl) fun s =>
      .lift_bind (.look read fun _ _ => rfl) fun ctx => ?_
    refine .lift_ite (.pure taken) (.lift_ite (.pure taken) ?_)
    exact .lift_bind (advance_carriesOut.map _) fun _ => ih _ _

/-- **Mends an error at a point**, as the production does. -/
def mend (point : TolerantPoint) (start : Nat) (error : ParseError) :
    Routine ErrorNode := do
  let ctx ← handing read
  let s ← handing get
  if !ctx.options.tolerant || s.aborted || error.isTooDeep then
    throw error
  let taken ← skipTo point ctx.turns 0 (s.current.span.start != start)
  if !taken then
    throw error
  let span ← handing (spanFrom start)
  handing (record (.recovered point span error))
  reportError .recoverable error
  handing (errorNode span)

/-- **A refusal is not mended**, and whatever else is mended or stands is
none. -/
theorem mend_carriesOut (point : TolerantPoint) (start : Nat)
    (error : ParseError) :
    CarriesOut n error.refusals (mend point start error)
      (Parse.mend point start error) := by
  refine .behind (.look read fun _ _ => rfl) fun ctx =>
    .behind (.look get fun _ _ => rfl) fun s => ?_
  refine .ite (fun _ => .throwBind error) fun hc => ?_
  have shallow : error.isTooDeep = false := by
    simp only [Bool.or_eq_true, not_or, Bool.not_eq_true] at hc
    exact hc.2
  have hnone := ParseError.refusals_eq_zero shallow
  rw [hnone]
  refine .bind (skipTo_carriesOut point ctx.turns 0 _) fun taken => ?_
  refine .ite (fun _ => hnone ▸ .throwBind error) fun _ => ?_
  refine .bind (.look (spanFrom start) fun _ _ => rfl) fun span => ?_
  refine .bind (.handing (.record (.recovered point span error)))
    fun _ => ?_
  refine .bind (reportError_carriesOut .recoverable error) fun _ => ?_
  exact .look (errorNode span) fun _ _ => rfl

/-- **Passes over the rest of a statement.** -/
def skipStatement : (turns depth : Nat) → (taken : Bool) → Routine Unit
  | 0, _, _ => return
  | turns + 1, depth, taken => do
    let s ← handing get
    let ctx ← handing read
    let token := s.current
    if s.aborted || token.isEof then
      return
    else if depth = 0 && taken
        && Parse.endsStatement ctx.listEnd s.newlineBefore token then
      return
    else
      discard advance
      let depth := depthAfter token depth
      if depth = 0 && token.isPunctuator .semicolon then
        return
      else
        skipStatement turns depth true

theorem skipStatement_carriesOut (turns depth : Nat) (taken : Bool) :
    CarriesOut n 0 (skipStatement turns depth taken)
      (liftM (Parse.skipStatement turns depth taken)) := by
  induction turns generalizing depth taken with
  | zero => exact .pure _
  | succ turns ih =>
    refine .lift_bind (.look get fun _ _ => rfl) fun s =>
      .lift_bind (.look read fun _ _ => rfl) fun ctx => ?_
    refine .lift_ite (.pure _) (.lift_ite (.pure _) ?_)
    refine .lift_bind (advance_carriesOut.map _) fun _ => ?_
    exact .lift_ite (.pure _) (ih _ _)

/-- **Gives up the statement that began at an offset**, as the production
does. -/
def abandon (start : Nat) (error : ParseError) :
    Routine (Option Statement) := do
  reportError .structural error
  handing (record (.abandoned start error))
  let ctx ← handing read
  let s ← handing here
  skipStatement ctx.turns 0 (start < s)
  let span ← handing (spanFrom start)
  if span.isEmpty then
    return none
  else
    let node ← handing (errorNode span)
    return some (.error node)

/-- **A refusal is taken down** with the statement it costs. -/
theorem abandon_carriesOut (start : Nat) (error : ParseError) :
    CarriesOut n error.refusals (abandon start error)
      (liftM (Parse.abandon start error)) := by
  refine .lift_behind (reportError_carriesOut .structural error) fun _ => ?_
  refine .lift_bind (.handing (.record (.abandoned start error)))
    fun _ => ?_
  refine .lift_bind (.look read fun _ _ => rfl) fun ctx =>
    .lift_bind (.look here fun _ _ => rfl) fun s => ?_
  refine .lift_bind (skipStatement_carriesOut ctx.turns 0 _) fun _ =>
    .lift_bind (.look (spanFrom start) fun _ _ => rfl) fun span => ?_
  exact .lift_ite (.pure none)
    (.lift_bind (.look (errorNode span) fun _ _ => rfl) fun node =>
      .pure (some (Statement.error node)))

end Routine

/-! ## The routine of a production -/

/-- **Routines for what a grammar is asked for.** -/
abbrev Grammar.Routines := ∀ ⦃α : Type⦄, Entry α → Routine α

namespace Parse.Plan

/-- **The routine of a production**, read off its plan, if there are
routines for what it asks its grammar for. -/
def routine (inner : Grammar.Routines) :
    {known : Prop} → {handed : Nat} → {α : Type} →
      {p : Grammar → Parse α} → Plan known handed p → Routine α
  | _, _, _, _, .look x _ _ => .handing (liftM x)
  | _, _, _, _, .advance => .advance
  | _, _, _, _, .rescan behind => do
    let ctx ← .handing read
    .handing (modify (·.rescanRegex ctx))
    behind.routine inner
  | _, _, _, _, .report kind severity message span =>
    .report kind severity message span
  | _, _, _, _, .trailing => .trailing
  | _, _, _, _, .reportError kind error => .reportError kind error
  | _, _, _, _, .record event => .handing (liftM (Action.record event))
  | _, _, _, _, .throw error _ _ => MonadExcept.throw error
  | _, _, _, _, .mend point start error _ => .mend point start error
  | _, _, _, _, .abandon start error => .abandon start error
  | _, _, _, _, .enter entry => inner entry
  | _, _, _, _, .bind first behind => do
    (behind (← first.routine inner)).routine inner
  | _, _, _, _, .meet behind => do
    (behind (← .handing (liftM Action.current))).routine inner
  | _, _, _, _, .take behind => do
    (behind (← .advance)).routine inner
  | _, _, _, _, .view _ behind => do
    (behind (← .handing get)).routine inner
  | _, _, _, _, .consult _ behind => do
    (behind (← .handing read)).routine inner
  | _, _, _, _, @tolerant _ _ _ point _ body => do
    let start ← .handing (liftM Action.here)
    try body.routine inner
    catch error => Mendable.ofError <$> .mend point start error
  | _, _, _, _, .orAbandon start body =>
    try some <$> body.routine inner
    catch error => .abandon start error
  | _, _, _, _, .inBrackets body =>
    .within Context.inBrackets (body.routine inner)
  | _, _, _, _, .inList listEnd body =>
    .within (·.inList listEnd) (body.routine inner)
  | _, _, _, _, .withoutIn body => .withoutIn (body.routine inner)
  | _, _, _, _, .same _ _ plan => plan.routine inner

/-- **The routine of a production carries it out**, if those for what it
asks its grammar for do. -/
theorem carriesOut {inner : Grammar.Routines} {g : Grammar}
    (hinner : ∀ ⦃α : Type⦄ (entry : Grammar.Entry α),
      (inner entry).CarriesOut n 0 (g.ask entry))
    {K : Prop} {p : Grammar → Parse α} (plan : Plan K i p) :
    (plan.routine inner).CarriesOut n i (p g) := by
  induction plan with
  | look x still _ => exact .look x still
  | advance => exact Routine.advance_carriesOut
  | rescan _ ih =>
    exact .bind (.look (MonadReader.read : Action Context) fun _ _ => rfl)
      fun ctx => .bind (.handing (.rescan ctx)) fun _ => ih
  | report => exact Routine.report_carriesOut ..
  | trailing => exact Routine.trailing_carriesOut
  | reportError => exact Routine.reportError_carriesOut ..
  | record event => exact .handing (.record event)
  | throw error shallow _ => exact .throw shallow
  | mend => exact Routine.mend_carriesOut ..
  | abandon => exact Routine.abandon_carriesOut ..
  | enter entry => exact hinner entry
  | bind _ _ ihfirst ihbehind => exact .bind ihfirst ihbehind
  | meet _ ih => exact .bind (.look Action.current fun _ _ => rfl) ih
  | take _ ih => exact .bind Routine.advance_carriesOut ih
  | view _ _ ih =>
    exact .bind (.look (MonadState.get : Action State) fun _ _ => rfl) ih
  | consult _ _ ih =>
    exact .bind (.look (MonadReader.read : Action Context) fun _ _ => rfl)
      ih
  | tolerant point _ ih =>
    show Routine.CarriesOut n 0 _ (Parse.tolerant point _)
    rw [tolerant_eq]
    exact .bind (.look Action.here fun _ _ => rfl) fun start =>
      .tryCatch ih fun error =>
        (Routine.mend_carriesOut point start error).map _
  | orAbandon start _ ih =>
    exact .tryCatch (ih.map some) fun error =>
      Routine.abandon_carriesOut start error
  | inBrackets _ ih => exact .inBrackets ih
  | inList listEnd _ ih => exact .inList listEnd ih
  | withoutIn _ ih => exact .withoutIn ih
  | same handed_eq eq _ ih =>
    subst handed_eq eq
    exact ih

/-- The routine of a condition reads as the condition does. -/
example (inner : Grammar.Routines) :
    (condition (K := False)).routine inner = (do
      Functor.discard
        ((expectPunctuator (K := False) .lParen).routine inner)
      let e ← inner (.bracketed .parenthesized .rParen)
      Functor.discard
        ((expectPunctuator (K := False) .rParen).routine inner)
      return e) := rfl

end Parse.Plan

/-! ## The routines of all levels -/

/-- **The routines with so many levels to go**: the limit is looked at
first. -/
def Grammar.routines : Nat → Routines
  | 0 => fun _ _ => .guarded (.handing Parse.tooDeep)
  | n + 1 => fun _ entry =>
    .guarded ((entry.plan (K := False)).routine (routines n))

/-- **The routines of all levels** carry out what their grammars are asked
for. -/
theorem Grammar.routines_carriesOut (n : Nat) ⦃α : Type⦄
    (entry : Entry α) :
    (routines n entry).CarriesOut n 0 ((levels n).ask entry) := by
  induction n generalizing α with
  | zero =>
    rw [show (levels 0).ask entry = _ from ask_exhausted entry]
    exact .refused _
  | succ n ih =>
    rw [ask_levels_succ]
    exact .guarded (entry.plan.carriesOut ih)

/-- The limit is looked at before the register is set. -/
example (n : Nat) : Grammar.routines (n + 1) .arguments
    = .guarded (.within Context.inBrackets
      ((Parse.Plan.callArguments (K := False)).routine
        (Grammar.routines n))) := rfl

end ScriptTree
