import ScriptTree.Parse.Levels
import ScriptTree.Parse.Outcome
import ScriptTree.Proofs.Parse.Logic

/-!
# How productions are put together

There are many productions, but few ways to put one together from others:
one production after another, a choice, a look at the state, a production
in another context, a production and what is done about its failure. A
`Parse.Plan` of a production says how it is put together, and there is one
rule for each way. So what holds of all productions, whatever they answer,
is proved by induction on plans, with one case a rule.

A plan is about a production over any grammar. Where the production goes
one level deeper the plan has the name of what it asks the grammar for
(`Grammar.Entry`), and not a plan of that. What holds of the productions
of a grammar if it holds of those one level deeper holds of the grammars of
all levels, since it holds where there is no level to go.

Two rules have conditions. A look at the state shows what is still to be
read (`State.sight`) and nothing of what has been taken down, and a look at
the context shows no options. And an error that is thrown must not have
been taken down with its token already: if nothing has gone wrong before,
nothing is wrong with the tokens that have been met (`known`).
-/

namespace ScriptTree

variable {α β : Type}

/-! ## Refusals -/

/-- Whether a statement was given up because it was refused for its
depth. -/
def Event.isRefusal : Event → Bool
  | .abandoned _ error => error.isTooDeep
  | _ => false

/-- How many refusals a decision takes down: one or none. -/
def Event.refusals (event : Event) : Nat :=
  if event.isRefusal then 1 else 0

/-- How many refusals an error is: one or none. -/
def ParseError.refusals (error : ParseError) : Nat :=
  if error.isTooDeep then 1 else 0

theorem ParseError.refusals_eq_zero {error : ParseError}
    (h : error.isTooDeep = false) : error.refusals = 0 := by
  rw [refusals, h]
  rfl

/-- No token is blamed for the nesting limit. -/
theorem ParseError.ofToken_isTooDeep (expected : String) (token : Token) :
    (ofToken expected token).isTooDeep = false := by
  unfold ofToken
  split <;> rfl

/-- Where nothing is wrong with a token, it has not been taken down
already that it is blamed. -/
theorem ParseError.isLexical_ofToken {token : Token} (expected : String)
    (h : token.error = none) :
    (ofToken expected token).isLexical = false := by
  unfold ofToken
  split
  · rfl
  · show token.error.isSome = false
    rw [h]
    rfl

/-! ## What productions may look at -/

/-- A context with other options. -/
def Context.withOptions (ctx : Context) (options : Options) : Context :=
  { ctx with options := options }

/-- **What a state shows to a production**: all but what has been taken
down, and the levels and tokens that led to it. -/
def State.sight (s : State) : State :=
  { s with
    taken := []
    diagnostics := #[]
    comments := #[]
    events := #[]
    depth := none }

/-! ## What productions ask a grammar for -/

/-- **The productions that count as a level**, by name. -/
inductive Grammar.Entry : Type → Type where
  /-- A statement. -/
  | statement : Entry Statement
  /-- Statements in braces. -/
  | block : Entry Block
  /-- An expression with no operator looser than the given level. -/
  | expression (min : Precedence) : Entry Expression
  /-- The expression between brackets. -/
  | bracketed (point : TolerantPoint) (closer : Punctuator) :
      Entry Expression
  /-- The first branch of a conditional expression. -/
  | consequent : Entry Expression
  /-- The arguments of a call. -/
  | arguments : Entry (List Expression)
  /-- The elements of an array. -/
  | elements : Entry (List Expression)
  /-- The members of an object. -/
  | members : Entry (List ObjectMember)
  /-- The methods of a class. -/
  | methods : Entry (List Method)
  /-- The parameters of a function. -/
  | parameters : Entry (List Identifier)
  /-- The header of a `for` loop. -/
  | forHeader : Entry ForHeader
  /-- The name for an exception. -/
  | catchParameter : Entry Identifier
  /-- The names of an import list. -/
  | importSpecifiers : Entry (List ImportSpecifier)
  /-- The names of an export list. -/
  | exportSpecifiers : Entry (List ExportSpecifier)

namespace Grammar

/-- **What a grammar has under a name.** -/
def ask (g : Grammar) : Entry α → Parse α
  | .statement => g.statement
  | .block => g.block
  | .expression min => g.expression min
  | .bracketed point closer => g.bracketed point closer
  | .consequent => g.consequent
  | .arguments => g.arguments
  | .elements => g.elements
  | .members => g.members
  | .methods => g.methods
  | .parameters => g.parameters
  | .forHeader => g.forHeader
  | .catchParameter => g.catchParameter
  | .importSpecifiers => g.importSpecifiers
  | .exportSpecifiers => g.exportSpecifiers

/-- **What is read under a name**, once the level has been entered. -/
def Entry.body : Entry α → Grammar → Parse α
  | statement => Parse.statementFrom
  | block => Parse.blockFrom
  | expression min => fun g => Parse.expressionFrom g min
  | bracketed point closer => fun g =>
    withReader Context.inBrackets
      (Parse.tolerant point (Parse.expressionBefore g closer))
  | consequent => fun g =>
    withReader Context.inBrackets (Parse.assignment g)
  | arguments => fun g =>
    withReader Context.inBrackets (Parse.callArguments g)
  | elements => fun g =>
    withReader Context.inBrackets (Parse.arrayElements g)
  | members => fun g =>
    withReader Context.inBrackets (Parse.objectMembers g)
  | methods => fun g =>
    withReader Context.inBrackets (Parse.classMethods g)
  | parameters => fun _ =>
    withReader Context.inBrackets Parse.parameterNames
  | forHeader => fun g =>
    withReader Context.inBrackets (Parse.forHeader g)
  | catchParameter => fun _ =>
    withReader Context.inBrackets Parse.identifier
  | importSpecifiers => fun _ =>
    withReader Context.inBrackets (Parse.specifiers Parse.importSpecifier)
  | exportSpecifiers => fun _ =>
    withReader Context.inBrackets (Parse.specifiers Parse.exportSpecifier)

/-- Where there is no level to go, all that is asked for is refused. -/
theorem ask_exhausted (entry : Entry α) :
    exhausted.ask entry = Parse.tooDeep := by
  cases entry <;> rfl

/-- **One more level**: what is asked for is read over the grammar of one
level less. -/
theorem ask_levels_succ (n : Nat) (entry : Entry α) :
    (levels (n + 1)).ask entry
      = Parse.guarded (entry.body (levels n)) := by
  cases entry <;> rfl

end Grammar

/-! ## Plans -/

/-- **A statement, or what is left of it** if it is given up. -/
def Parse.orAbandon (start : Nat) (p : Parse Statement) :
    Parse (Option Statement) :=
  tryCatch (some <$> p) fun error => liftM (abandon start error)

theorem Parse.orAbandon_run (start : Nat) (p : Parse Statement)
    (ctx : Context) (s : State) :
    orAbandon start p ctx s = match p ctx s with
      | (.ok a, t) => (.ok (some a), t)
      | (.error e, t) => (liftM (abandon start e) : Parse _) ctx t := by
  unfold orAbandon
  rw [tryCatch_run, map_eq_pure_bind, bind_run]
  obtain ⟨e | a, t⟩ := p ctx s <;> rfl

/-- **How a production is put together**, over any grammar. The first
index is what is known where nothing has gone wrong so far, the second how
many refusals the production is handed: it is one for what is done about a
refusal, and none for all others. -/
inductive Parse.Plan : (known : Prop) → (handed : Nat) → {α : Type} →
    (Grammar → Parse α) → Type 1 where
  /-- A look at the context and the state. -/
  | look {K : Prop} {α : Type} (x : Action α)
      (still : ∀ ctx s, (x ctx s).2 = s)
      (blind : ∀ ctx options s,
        (x (ctx.withOptions options) s.sight).1 = (x ctx s).1) :
      Plan K 0 fun _ => liftM x
  /-- The current token is read. -/
  | advance {K : Prop} : Plan K 0 fun _ => liftM Action.advance
  /-- It is read again as a regular expression. -/
  | rescan {K : Prop} {α : Type} {f : Grammar → Parse α}
      (behind : Plan K 0 f) :
      Plan K 0 fun g => do
        modify (·.rescanRegex (← read))
        f g
  /-- A problem is taken down. -/
  | report {K : Prop} (kind : DiagnosticKind) (severity : Severity)
      (message : String) (span : Span) :
      Plan K 0 fun _ => liftM (Action.report kind severity message span)
  /-- The last statement of a list has no terminator, and the options say
  whether it needs one. -/
  | trailing {K : Prop} :
      Plan K 0 fun _ => liftM (do
        if (← read).options.allowTrailingStatement then return
        else reportMissingTerminator true : Action Unit)
  /-- An error is taken down. -/
  | reportError {K : Prop} (kind : DiagnosticKind) (error : ParseError) :
      Plan K 0 fun _ => liftM (Action.reportError kind error)
  /-- A decision is taken down. -/
  | record {K : Prop} (event : Event) :
      Plan K event.refusals fun _ => liftM (Action.record event)
  /-- The production fails. -/
  | throw {K : Prop} {α : Type} (error : ParseError)
      (shallow : error.isTooDeep = false)
      (fresh : K → error.isLexical = false) :
      Plan K 0 fun _ => (throw error : Parse α)
  /-- An error is mended at a point, or stands. -/
  | mend {K : Prop} (point : TolerantPoint) (start : Nat)
      (error : ParseError) (fresh : K → error.isLexical = false) :
      Plan K error.refusals fun _ => mend point start error
  /-- A statement is given up. -/
  | abandon {K : Prop} (start : Nat) (error : ParseError) :
      Plan K error.refusals fun _ => liftM (Parse.abandon start error)
  /-- A level is entered. -/
  | enter {K : Prop} {α : Type} (entry : Grammar.Entry α) :
      Plan K 0 fun g => g.ask entry
  /-- One production after another. -/
  | bind {K : Prop} {i : Nat} {α β : Type} {p : Grammar → Parse α}
      {f : α → Grammar → Parse β} (first : Plan K i p)
      (behind : ∀ a, Plan K 0 (f a)) :
      Plan K i fun g => p g >>= fun a => f a g
  /-- The current token is looked at, and something may be known of it. -/
  | meet {K : Prop} {α : Type} {f : Token → Grammar → Parse α}
      (behind : ∀ token, Plan (K ∧ token.error = none) 0 (f token)) :
      Plan K 0 fun g => liftM Action.current >>= fun token => f token g
  /-- The current token is read, and something may be known of it. -/
  | take {K : Prop} {α : Type} {f : Token → Grammar → Parse α}
      (behind : ∀ token, Plan (K ∧ token.error = none) 0 (f token)) :
      Plan K 0 fun g => liftM Action.advance >>= fun token => f token g
  /-- What the state shows is looked at. -/
  | view {K : Prop} {α : Type} {f : State → Grammar → Parse α}
      (blind : ∀ s g, f s.sight g = f s g) (behind : ∀ s, Plan K 0 (f s)) :
      Plan K 0 fun g => get >>= fun s => f s g
  /-- The context is looked at, but for its options. -/
  | consult {K : Prop} {α : Type} {f : Context → Grammar → Parse α}
      (blind : ∀ ctx options g, f (ctx.withOptions options) g = f ctx g)
      (behind : ∀ ctx, Plan K 0 (f ctx)) :
      Plan K 0 fun g => read >>= fun ctx => f ctx g
  /-- A production at a tolerant point. -/
  | tolerant {K : Prop} {α : Type} [Mendable α] (point : TolerantPoint)
      {p : Grammar → Parse α} (body : Plan K 0 p) :
      Plan K 0 fun g => tolerant point (p g)
  /-- A statement that may be given up. -/
  | orAbandon {K : Prop} (start : Nat) {p : Grammar → Parse Statement}
      (body : Plan K 0 p) : Plan K 0 fun g => orAbandon start (p g)
  /-- A production between brackets. -/
  | inBrackets {K : Prop} {α : Type} {p : Grammar → Parse α}
      (body : Plan K 0 p) :
      Plan K 0 fun g => withReader Context.inBrackets (p g)
  /-- A list of statements. -/
  | inList {K : Prop} {α : Type} {p : Grammar → Parse α}
      (listEnd : ListEnd) (body : Plan K 0 p) :
      Plan K 0 fun g => withReader (·.inList listEnd) (p g)
  /-- A production where `in` is no operator. -/
  | withoutIn {K : Prop} {α : Type} {p : Grammar → Parse α}
      (body : Plan K 0 p) :
      Plan K 0 fun g => withReader Context.withoutIn (p g)
  /-- What is the same has the same plan, however it is written. -/
  | same {K : Prop} {i j : Nat} {α : Type} {p p' : Grammar → Parse α}
      (handed_eq : i = j) (eq : p = p') (plan : Plan K i p) : Plan K j p'

/-- **How an action is put together.** -/
abbrev Action.Plan (known : Prop) (handed : Nat)
    (x : Grammar → Action α) : Type 1 :=
  Parse.Plan known handed fun g => (liftM (x g) : Parse α)

/-! ## Further ways to put productions together -/

variable {K : Prop} {i : Nat}

namespace Parse.Plan

/-- An answer. -/
def pure (a : α) : Plan K 0 fun _ => (Pure.pure a : Parse α) :=
  .look (Pure.pure a) (fun _ _ => rfl) fun _ _ _ => rfl

/-- A choice. -/
def ite {c : Prop} [Decidable c] {p q : Grammar → Parse α}
    (hp : Plan K i p) (hq : Plan K i q) :
    Plan K i fun g => if c then p g else q g :=
  if h : c then .same rfl (funext fun _ => (if_pos h).symm) hp
  else .same rfl (funext fun _ => (if_neg h).symm) hq

/-- An answer made into another. -/
def map {p : Grammar → Parse α} (f : α → β) (plan : Plan K i p) :
    Plan K i fun g => f <$> p g :=
  .same rfl (funext fun g => (map_eq_pure_bind f (p g)).symm)
    (.bind plan fun a => .pure (f a))

/-- A production without its answer. -/
def discard {p : Grammar → Parse α} (plan : Plan K i p) :
    Plan K i fun g => Functor.discard (p g) :=
  plan.map fun _ => PUnit.unit

/-- An expression one level deeper. -/
def enterExpression (min : Precedence) :
    Plan K 0 fun g => g.expression min := .enter (.expression min)

/-- An expression between brackets, one level deeper. -/
def enterBracketed (point : TolerantPoint) (closer : Punctuator) :
    Plan K 0 fun g => g.bracketed point closer :=
  .enter (.bracketed point closer)

/-- **Nothing is wrong with a token that has been met**, in a strict run. -/
theorem clear_of_met {token : Token} (h : K ∧ token.error = none) :
    token.error = none := h.2

/-- The production fails because of a token. -/
def blame (expected : String) (token : Token)
    (clear : K → token.error = none) :
    Plan K 0 fun _ => (MonadExcept.throw (.ofToken expected token) : Parse α) :=
  .throw _ (ParseError.ofToken_isTooDeep expected token) fun h =>
    ParseError.isLexical_ofToken expected (clear h)

/-- The production fails because of the current token. -/
def unexpected (expected : String) :
    Plan K 0 fun _ => (Parse.unexpected expected : Parse α) :=
  .meet fun token => .blame expected token clear_of_met

end Parse.Plan

/-! ## Actions -/

namespace Action.Plan

/-- One action after another. -/
def bind {x : Grammar → Action α} {f : α → Grammar → Action β}
    (first : Action.Plan K i x) (behind : ∀ a, Action.Plan K 0 (f a)) :
    Action.Plan K i fun g => x g >>= fun a => f a g :=
  Parse.Plan.bind first behind

/-- An answer. -/
def pure (a : α) : Action.Plan K 0 fun _ => (Pure.pure a : Action α) :=
  Parse.Plan.pure a

/-- A choice. -/
def ite {c : Prop} [Decidable c] {x y : Grammar → Action α}
    (hx : Action.Plan K i x) (hy : Action.Plan K i y) :
    Action.Plan K i fun g => if c then x g else y g :=
  if h : c then
    .same rfl (funext fun _ => congrArg (liftM ·) (if_pos h).symm) hx
  else
    .same rfl (funext fun _ => congrArg (liftM ·) (if_neg h).symm) hy

/-- An action without its answer. -/
def discard {x : Grammar → Action α} (plan : Action.Plan K i x) :
    Action.Plan K i fun g => Functor.discard (x g) :=
  .bind plan fun _ => .pure PUnit.unit

/-- What the state shows is looked at. -/
def view {f : State → Grammar → Action α}
    (blind : ∀ s g, f s.sight g = f s g)
    (behind : ∀ s, Action.Plan K 0 (f s)) :
    Action.Plan K 0 fun g => get >>= fun s => f s g :=
  Parse.Plan.view (f := fun s g => liftM (f s g))
    (fun s g => congrArg (liftM ·) (blind s g)) behind

/-- The context is looked at, but for its options. -/
def consult {f : Context → Grammar → Action α}
    (blind : ∀ ctx options g, f (ctx.withOptions options) g = f ctx g)
    (behind : ∀ ctx, Action.Plan K 0 (f ctx)) :
    Action.Plan K 0 fun g => read >>= fun ctx => f ctx g :=
  Parse.Plan.consult (f := fun ctx g => liftM (f ctx g))
    (fun ctx options g => congrArg (liftM ·) (blind ctx options g)) behind

end Action.Plan

namespace Parse

open ScriptTree.Action

namespace Plan

/-- The current token. -/
def current : Action.Plan K 0 fun _ => current :=
  .look _ (fun _ _ => rfl) fun _ _ _ => rfl

/-- The token behind it. -/
def peek : Action.Plan K 0 fun _ => peek :=
  .look _ (fun _ _ => rfl) fun _ _ _ => rfl

/-- Where the current token begins. -/
def here : Action.Plan K 0 fun _ => here :=
  .look _ (fun _ _ => rfl) fun _ _ _ => rfl

/-- Whether the current token is a given mark. -/
def atPunctuator (p : Punctuator) :
    Action.Plan K 0 fun _ => atPunctuator p :=
  .look _ (fun _ _ => rfl) fun _ _ _ => rfl

/-- Whether the current token is a given reserved word. -/
def atKeyword (k : Keyword) : Action.Plan K 0 fun _ => atKeyword k :=
  .look _ (fun _ _ => rfl) fun _ _ _ => rfl

/-- Whether the current token is a given name. -/
def atWord (word : String) : Action.Plan K 0 fun _ => atWord word :=
  .look _ (fun _ _ => rfl) fun _ _ _ => rfl

/-- Whether the current token is of a given kind. -/
def atKind (kind : TokenKind) : Action.Plan K 0 fun _ => atKind kind :=
  .look _ (fun _ _ => rfl) fun _ _ _ => rfl

/-- Whether a line break stands before the current token. -/
def newlineBefore : Action.Plan K 0 fun _ => newlineBefore :=
  .look _ (fun _ _ => rfl) fun _ _ _ => rfl

/-- Whether the innermost list of statements ends. -/
def atListEnd : Action.Plan K 0 fun _ => atListEnd :=
  .look _ (fun _ _ => rfl) fun _ _ _ => rfl

/-- The span of what was read. -/
def spanFrom (start : Nat) : Action.Plan K 0 fun _ => spanFrom start :=
  .look _ (fun _ _ => rfl) fun _ _ _ => rfl

/-- The text of a span. -/
def errorNode (span : Span) : Action.Plan K 0 fun _ => errorNode span :=
  .look _ (fun _ _ => rfl) fun _ _ _ => rfl

/-- A given mark is read if it comes next. -/
def eat (p : Punctuator) : Action.Plan K 0 fun _ => eat p :=
  .bind (.atPunctuator p) fun _ =>
    .ite (.bind (.discard .advance) fun _ => .pure true) (.pure false)

/-! ## Going on after an error -/

/-- Tokens are passed over up to the delimiter of a point. -/
def skipTo (point : TolerantPoint) :
    (turns depth : Nat) → (taken : Bool) →
      Action.Plan K 0 fun _ => skipTo point turns depth taken
  | 0, _, taken => Action.Plan.pure taken
  | turns + 1, depth, taken =>
    .view (fun _ _ => rfl) fun s => .consult (fun _ _ _ => rfl) fun _ =>
      .ite (.pure taken) (.ite (.pure taken)
        (.bind (.discard .advance) fun _ =>
          .skipTo point turns (depthAfter s.current depth) true))

/-- The rest of a statement is passed over. -/
def skipStatement : (turns depth : Nat) → (taken : Bool) →
    Action.Plan K 0 fun _ => skipStatement turns depth taken
  | 0, _, _ => Action.Plan.pure ()
  | turns + 1, _, _ =>
    .view (fun _ _ => rfl) fun _ => .consult (fun _ _ _ => rfl) fun _ =>
      .ite (.pure ()) (.ite (.pure ()) (.bind (.discard .advance) fun _ =>
        .ite (.pure ()) (.skipStatement turns _ true)))

/-- An item without a separator behind it. -/
def missingSeparator [Mendable α] (point : TolerantPoint)
    (expected : String) :
    Plan K 0 fun _ => (missingSeparator point expected : Parse α) :=
  .meet fun token =>
    have shallow := ParseError.ofToken_isTooDeep expected token
    .bind (.same (ParseError.refusals_eq_zero shallow) rfl
      (.mend point token.span.start _ fun h =>
        ParseError.isLexical_ofToken expected (clear_of_met h)))
      fun _ => .pure _

section Items

variable [Mendable α] (point : TolerantPoint) (closer : Punctuator)
  {item : Grammar → Parse α} (plan : Plan K 0 item)

/-- The loop over items with commas between them. -/
def separatedFrom : (turns : Nat) → (found : List α) →
    Plan K 0 fun g => separatedFrom point closer (item g) turns found
  | 0, found => .pure found.reverse
  | turns + 1, found =>
    .bind (.atPunctuator closer) fun _ => .ite (.pure found.reverse)
      (.bind (.tolerant point plan) fun x =>
        .bind (.eat .comma) fun _ => .ite
          (.separatedFrom turns (x :: found))
          (.bind (.atPunctuator closer) fun _ => .ite
            (.separatedFrom turns (x :: found))
            (.ite
              (.bind (.discard (.eat .comma)) fun _ =>
                .separatedFrom turns (x :: found))
              (.bind (.missingSeparator point _) fun skipped =>
                .bind (.discard (.eat .comma)) fun _ =>
                  .separatedFrom turns (skipped :: x :: found)))))

/-- Items with commas between them. -/
def separated : Plan K 0 fun g => separated point closer (item g) :=
  .consult (fun _ _ _ => rfl) fun ctx =>
    .separatedFrom point closer plan ctx.turns []

end Items

end Plan

end Parse

end ScriptTree
