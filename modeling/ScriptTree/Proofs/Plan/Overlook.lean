import ScriptTree.Proofs.Parse.Step
import ScriptTree.Proofs.Plan.Grammar

/-!
# What a parse has read is overlooked

A state keeps the tokens that were read to get there (`State.taken`). They
are there to be talked about, and not for the parse: with other tokens
*behind* it, a production does what it does without them, and leaves them
where they were (`Parse.Overlooks`). This holds of whatever has a plan
(`Parse.Plan.overlooks`), so it holds of the grammars of all levels and of
whole scripts (`runScript_overlooks`).
-/

namespace ScriptTree

variable {α β : Type} {K : Prop} {i : Nat}

/-- **A state with tokens behind it** that were read before all others. -/
def State.behind (tokens : List Token) (s : State) : State :=
  s.aside id (· ++ tokens)

namespace Parse

/-- **A production that overlooks what was read** before it is run. -/
def Overlooks (p : Parse α) : Prop :=
  ∀ (tokens : List Token) (ctx : Context) (s : State),
    p ctx (s.behind tokens) = ((p ctx s).1, (p ctx s).2.behind tokens)

namespace Overlooks

/-! ## Ways to put productions together -/

theorem look {x : Action α} (still : ∀ ctx s, (x ctx s).2 = s)
    (blind : ∀ ctx options s,
      (x (ctx.withOptions options) s.sight).1 = (x ctx s).1) :
    Overlooks (liftM x : Parse α) := by
  intro tokens ctx s
  have hsame : (x ctx (s.behind tokens)).1 = (x ctx s).1 :=
    (blind ctx ctx.options (s.behind tokens)).symm.trans
      (blind ctx ctx.options s)
  show (Except.ok (x ctx (s.behind tokens)).1, (x ctx (s.behind tokens)).2)
    = (.ok (x ctx s).1, (x ctx s).2.behind tokens)
  rw [still, still, hsame]

theorem pure (a : α) : Overlooks (Pure.pure a) := fun _ _ _ => rfl

theorem throw (e : ParseError) : Overlooks (MonadExcept.throw e : Parse α) :=
  fun _ _ _ => rfl

/-- A failure, whatever was to come. -/
theorem throwBind (e : ParseError) {f : β → Parse α} :
    Overlooks (MonadExcept.throw e >>= f) := fun _ _ _ => rfl

/-- One production after another. -/
theorem bind {p : Parse α} {f : α → Parse β} (hp : Overlooks p)
    (hf : ∀ a, Overlooks (f a)) : Overlooks (p >>= f) := by
  intro tokens ctx s
  rw [bind_run, hp, bind_run]
  obtain ⟨e | a, t⟩ := p ctx s
  · rfl
  · exact hf a tokens ctx t

theorem map {p : Parse α} (f : α → β) (hp : Overlooks p) :
    Overlooks (f <$> p) := by
  rw [map_eq_pure_bind]
  exact hp.bind fun a => pure (f a)

theorem ite {c : Prop} [Decidable c] {p q : Parse α} (hp : Overlooks p)
    (hq : Overlooks q) : Overlooks (if c then p else q) := by
  split
  · exact hp
  · exact hq

/-- The context is looked at. -/
theorem consult {f : Context → Parse α} (hf : ∀ ctx, Overlooks (f ctx)) :
    Overlooks (read >>= f) := fun tokens ctx s => hf ctx tokens ctx s

/-- What the state shows is looked at. -/
theorem view {f : State → Parse α} (blind : ∀ s, f s.sight = f s)
    (hf : ∀ s, Overlooks (f s)) : Overlooks (get >>= f) := by
  intro tokens ctx s
  show f (s.behind tokens) ctx (s.behind tokens) = _
  have hsame : f (s.behind tokens) = f s :=
    (blind (s.behind tokens)).symm.trans (blind s)
  rw [hsame]
  exact hf s tokens ctx s

/-- A production and what is done about its failure. -/
theorem tryCatch {p : Parse α} {f : ParseError → Parse α}
    (hp : Overlooks p) (hf : ∀ e, Overlooks (f e)) :
    Overlooks (tryCatch p f) := by
  intro tokens ctx s
  rw [tryCatch_run, hp, tryCatch_run]
  obtain ⟨e | a, t⟩ := p ctx s
  · exact hf e tokens ctx t
  · rfl

/-- A production in another context. -/
theorem withReader {p : Parse α} (k : Context → Context)
    (hp : Overlooks p) : Overlooks (withReader k p : Parse α) :=
  fun tokens ctx s => hp tokens (k ctx) s

/-- A production that counts as a level. -/
theorem guarded {p : Parse α} (hp : Overlooks p) :
    Overlooks (guarded p) := by
  intro tokens ctx s
  rw [guarded_run, guarded_run]
  have h := hp tokens ctx s.enter
  change p ctx (s.behind tokens).enter = _ at h
  rw [h]
  rfl

/-! ## What changes the state -/

theorem advance : Overlooks (liftM Action.advance) := by
  intro tokens ctx s
  exact congrArg (Prod.mk (Except.ok s.current))
    (State.bump_aside ctx id (· ++ tokens) s fun _ _ => rfl)

/-- A change that leaves what was read before where it was. -/
theorem change {x : Parse PUnit} {f : Context → State → State}
    (hrun : ∀ ctx s, x ctx s = (.ok PUnit.unit, f ctx s))
    (hf : ∀ tokens ctx s,
      f ctx (s.behind tokens) = (f ctx s).behind tokens) :
    Overlooks x := by
  intro tokens ctx s
  rw [hrun, hrun, hf]

theorem rescan {p : Parse α} (hp : Overlooks p) :
    Overlooks (do modify (·.rescanRegex (← read)); p) :=
  .consult fun ctx => .bind
    (change (f := fun _ s => s.rescanRegex ctx) (fun _ _ => rfl)
      fun tokens _ s => State.rescanRegex_aside ctx id (· ++ tokens) s)
    fun _ => hp

theorem report (kind : DiagnosticKind) (severity : Severity)
    (message : String) (span : Span) :
    Overlooks (liftM (Action.report kind severity message span)) :=
  change (fun _ _ => rfl) fun tokens ctx s =>
    State.report_aside ctx id (· ++ tokens) s kind severity message span

theorem reportError (kind : DiagnosticKind) (error : ParseError) :
    Overlooks (liftM (Action.reportError kind error)) :=
  change (fun _ _ => rfl) fun tokens ctx s =>
    State.reportError_aside ctx id (· ++ tokens) s kind error

theorem record (event : Event) :
    Overlooks (liftM (Action.record event)) := fun _ _ _ => rfl

/-! ## Actions -/

theorem lift_bind {x : Action α} {f : α → Action β}
    (hx : Overlooks (liftM x : Parse α))
    (hf : ∀ a, Overlooks (liftM (f a) : Parse β)) :
    Overlooks (liftM (x >>= f) : Parse β) := hx.bind hf

theorem lift_discard {x : Action α} (hx : Overlooks (liftM x : Parse α)) :
    Overlooks (liftM (Functor.discard x) : Parse PUnit) :=
  hx.lift_bind (f := fun _ => Pure.pure PUnit.unit) fun _ => .pure _

theorem lift_ite {c : Prop} [Decidable c] {x y : Action α}
    (hx : Overlooks (liftM x : Parse α))
    (hy : Overlooks (liftM y : Parse α)) :
    Overlooks (liftM (if c then x else y) : Parse α) := by
  split
  · exact hx
  · exact hy

theorem lift_look {x : Action α} {f : α → Action β}
    (still : ∀ ctx s, (x ctx s).2 = s)
    (blind : ∀ ctx options s,
      (x (ctx.withOptions options) s.sight).1 = (x ctx s).1)
    (hf : ∀ a, Overlooks (liftM (f a) : Parse β)) :
    Overlooks (liftM (x >>= f) : Parse β) :=
  (look still blind).lift_bind hf

theorem lift_consult {f : Context → Action β}
    (hf : ∀ ctx, Overlooks (liftM (f ctx) : Parse β)) :
    Overlooks (liftM (read >>= f) : Parse β) :=
  .consult (f := fun ctx => liftM (f ctx)) hf

theorem lift_view {f : State → Action β} (blind : ∀ s, f s.sight = f s)
    (hf : ∀ s, Overlooks (liftM (f s) : Parse β)) :
    Overlooks (liftM (get >>= f) : Parse β) :=
  .view (f := fun s => liftM (f s))
    (fun s => congrArg (liftM ·) (blind s)) hf

/-! ## Going on after an error -/

theorem skipTo (point : TolerantPoint) (turns depth : Nat)
    (taken : Bool) :
    Overlooks (liftM (skipTo point turns depth taken)) := by
  induction turns generalizing depth taken with
  | zero => exact .pure taken
  | succ turns ih =>
    refine lift_view (fun _ => rfl) fun s => lift_consult fun ctx => ?_
    refine lift_ite (.pure _) (lift_ite (.pure _) ?_)
    exact advance.lift_discard.lift_bind fun _ => ih _ _

theorem mend (point : TolerantPoint) (start : Nat) (error : ParseError) :
    Overlooks (mend point start error) := by
  refine .consult fun ctx => .view (fun _ => rfl) fun s =>
    .ite (.throwBind error) ?_
  refine (skipTo point ctx.turns 0 _).bind fun taken =>
    .ite (.throwBind error) ?_
  refine (look (fun _ _ => rfl) fun _ _ _ => rfl).bind fun span => ?_
  refine (record _).bind fun _ => (reportError .recoverable error).bind
    fun _ => ?_
  exact look (fun _ _ => rfl) fun _ _ _ => rfl

theorem skipStatement (turns depth : Nat) (taken : Bool) :
    Overlooks (liftM (skipStatement turns depth taken)) := by
  induction turns generalizing depth taken with
  | zero => exact .pure _
  | succ turns ih =>
    refine lift_view (fun _ => rfl) fun s => lift_consult fun ctx => ?_
    refine lift_ite (.pure _) (lift_ite (.pure _) ?_)
    refine advance.lift_discard.lift_bind fun _ => ?_
    exact lift_ite (.pure _) (ih _ _)

theorem abandon (start : Nat) (error : ParseError) :
    Overlooks (liftM (abandon start error)) := by
  refine (reportError .structural error).lift_bind fun _ =>
    (record _).lift_bind fun _ => lift_consult fun ctx =>
      lift_look (fun _ _ => rfl) (fun _ _ _ => rfl) fun _ => ?_
  refine (skipStatement ctx.turns 0 _).lift_bind fun _ => ?_
  refine lift_look (fun _ _ => rfl) (fun _ _ _ => rfl) fun span => ?_
  refine lift_ite (.pure none) ?_
  exact lift_look (fun _ _ => rfl) (fun _ _ _ => rfl) fun _ => .pure _

theorem trailing : Overlooks (liftM (do
    if (← read).options.allowTrailingStatement then return
    else reportMissingTerminator true : Action Unit)) := by
  refine lift_consult fun ctx => lift_ite (.pure _) ?_
  refine lift_look (fun _ _ => rfl) (fun _ _ _ => rfl) fun token => ?_
  exact lift_ite (.pure _) (report _ _ _ _)

theorem tooDeep : Overlooks (tooDeep : Parse α) := fun _ _ _ => rfl

end Overlooks

/-! ## Whatever has a plan -/

/-- **Whatever has a plan overlooks what was read**, over grammars that
do. -/
theorem Plan.overlooks {g : Grammar}
    (hg : ∀ ⦃α : Type⦄ (entry : Grammar.Entry α), Overlooks (g.ask entry))
    {p : Grammar → Parse α} (plan : Plan K i p) : Overlooks (p g) := by
  induction plan with
  | look x still blind => exact .look still blind
  | advance => exact .advance
  | rescan _ ih => exact .rescan ih
  | report => exact .report _ _ _ _
  | trailing => exact .trailing
  | reportError => exact .reportError _ _
  | record => exact .record _
  | throw error => exact .throw error
  | mend => exact .mend _ _ _
  | abandon => exact .abandon _ _
  | enter entry => exact hg entry
  | bind _ _ ihfirst ihbehind => exact .bind ihfirst ihbehind
  | meet _ ih => exact .bind (.look (fun _ _ => rfl) fun _ _ _ => rfl) ih
  | take _ ih => exact .bind .advance ih
  | view blind _ ih => exact .view (fun s => blind s g) ih
  | consult _ _ ih => exact .consult ih
  | tolerant point _ ih =>
    show Overlooks (Parse.tolerant point _)
    rw [tolerant_eq]
    exact .bind (.look (fun _ _ => rfl) fun _ _ _ => rfl) fun start =>
      .tryCatch ih fun error => .map _ (.mend point start error)
  | orAbandon start _ ih =>
    exact .tryCatch (.map some ih) fun error => .abandon start error
  | inBrackets _ ih => exact .withReader _ ih
  | inList _ _ ih => exact .withReader _ ih
  | withoutIn _ ih => exact .withReader _ ih
  | same _ eq _ ih =>
    subst eq
    exact ih

end Parse

namespace Grammar

/-- **What is asked of the grammars of all levels** overlooks what was
read. -/
theorem levels_overlooks (n : Nat) ⦃α : Type⦄ (entry : Entry α) :
    ((levels n).ask entry).Overlooks := by
  induction n generalizing α with
  | zero =>
    rw [show (levels 0).ask entry = _ from ask_exhausted entry]
    exact .tooDeep
  | succ n ih =>
    rw [ask_levels_succ]
    exact .guarded ((entry.plan (K := False)).overlooks ih)

end Grammar

/-- **A whole script overlooks what was read**: begun with other tokens
behind its first state, the parse takes the same way to the same tree. -/
theorem runScript_overlooks (tokens : List Token) (source : List Char)
    (options : Options) (table : OperatorTable) :
    let ctx := Context.ofSource source options table
    (Parse.script (.levels options.maxNestingDepth) ctx).run
        ((State.initial ctx).behind tokens)
      = ((runScript source options table).1,
        (runScript source options table).2.behind tokens) := by
  intro ctx
  have h := (Parse.Plan.script (K := False)).overlooks
    (Grammar.levels_overlooks options.maxNestingDepth) tokens ctx
    (.initial ctx)
  have h := Prod.mk.inj h
  exact Prod.ext (Except.ok.inj h.1) h.2

end ScriptTree
