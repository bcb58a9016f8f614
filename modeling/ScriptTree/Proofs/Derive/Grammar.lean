import ScriptTree.Proofs.Account.Grammar
import ScriptTree.Proofs.Derive.Action

/-!
# Grammars whose productions derive what they read

Where nothing is mended a tolerant point is as good as none, and a list with
separators has an item for each turn of its loop.

A grammar **derives** what it should if the answer of each of its
productions comes out of the run. What is read between brackets comes out
of it as where line breaks do not matter, and a statement is asked for only
where they do.

That the grammar accounts for its failures is part of it: at a tolerant
point a failure is mended, and only its cause shows that this does not go
unnoticed.
-/

namespace ScriptTree

variable {root ctx ctx' : Context} {R : Replay root} {K : Set Mark}
  {r s : State} {α : Type}

namespace Replay.Yields

variable {parts : α → List Node} {mk : α → Node} {x : α} {found : List α}

/-- One more thing is read, behind those found before it. -/
theorem concat
    (h : R.Yields ctx K r (found.reverse.flatMap parts ++ parts x) s) :
    R.Yields ctx K r ((x :: found).reverse.flatMap parts) s := by
  rwa [List.reverse_cons, List.flatMap_append, List.flatMap_singleton]

/-- One more node is. -/
theorem concat_node
    (h : R.Yields ctx K r (found.reverse.map mk ++ [mk x]) s) :
    R.Yields ctx K r ((x :: found).reverse.map mk) s := by
  rwa [List.reverse_cons, List.map_append]

end Replay.Yields

namespace Parse

open ScriptTree.Action State

variable [Mendable α] {parts : α → List Node}

/-- **At a tolerant point** the same comes out as elsewhere. -/
theorem tolerant_yields {point : TolerantPoint} {p : Parse α}
    {V : α → State → Prop}
    (hp : Derives R K p ctx s
      (fun K' a t => R.Yields ctx' K' s (parts a) t))
    (hfounded : Accounts root p ctx s V) :
    Derives R K (tolerant point p) ctx s
      (fun K' a t => R.Yields ctx' K' s (parts a) t) :=
  hp.tolerant hfounded (fun _ _ hst hunfit => .of_unfit hst hunfit)

/-- A list without a separator ends no run well. -/
theorem missingSeparator_derives (point : TolerantPoint) (expected : String)
    {Q : Set Mark → α → State → Prop}
    (hQ : ∀ a t, Acts root s t → ¬R.Fits t → Q K a t) :
    Derives R K (missingSeparator point expected) ctx s Q := by
  refine .unfit ?_ hQ
  refine .look s.current rfl ?_
  refine (mend_accounts point _ (fun hs => ParseError.ofToken_founded hs
    List.mem_cons_self expected)).bind fun _ t _ hclean => ?_
  exact .pure (fun hquiet => hclean hquiet.toClean)

/-! ## Lists with separators -/

variable {item : Parse α}
  (hitem : ∀ s, Derives R ∅ item ctx s
    (fun K a t => R.Yields ctx K s (parts a) t))
  (hfounded : ∀ s, Accounts root item ctx s
    (fun a t => s.Gathers root (parts a) t))

include hitem hfounded

theorem separatedFrom_derives (point : TolerantPoint) (closer : Punctuator)
    (turns : Nat) {found : List α}
    (hfound : R.Yields ctx K r (found.reverse.flatMap parts) s) :
    Derives R K (separatedFrom point closer item turns found) ctx s
      (fun K xs t => R.Yields ctx K r (xs.flatMap parts) t) := by
  -- A turn adds an item, and another one where a separator is missing.
  induction turns generalizing s K found with
  | zero => exact .pure hfound
  | succ turns ih =>
    refine .ask (·.isPunctuator closer) (fun _ _ => rfl) (fun _ => rfl)
      (.ite (fun _ => .pure hfound) (fun _ => ?_))
    refine ((tolerant_yields (hitem s) (hfounded s)).after hfound).bind
      fun K x t _ hx => ?_
    refine (eat_yields .comma hx.concat).bind fun K b u _ hu => ?_
    refine .ite (fun _ => ih hu) (fun _ => ?_)
    refine .ask (·.isPunctuator closer) (fun _ _ => rfl) (fun _ => rfl)
      (.ite (fun _ => ih hu) (fun _ => .ite (fun _ => ?_) (fun _ => ?_)))
    · exact (discard_eat_yields .comma hu).bind fun K _ v _ hv => ih hv
    · refine (missingSeparator_derives (K := K) point _
        (Q := fun K y v => R.Yields ctx K r
          ((y :: x :: found).reverse.flatMap parts) v)
        (fun _ _ hacts hunfit =>
          .of_unfit (hu.acts.trans hacts) hunfit)).bind
        fun K y v _ hv => ?_
      exact (discard_eat_yields .comma hv).bind fun K _ w _ hw => ih hw

/-- **Items with commas between them.** -/
theorem separated_derives (point : TolerantPoint) (closer : Punctuator) :
    Derives R ∅ (separated point closer item) ctx s
      (fun K xs t => R.Yields ctx K s (xs.flatMap parts) t) :=
  .askContext rfl
    (separatedFrom_derives hitem hfounded point closer _ (.refl _))

end Parse

end ScriptTree

namespace ScriptTree

variable {root ctx : Context} {R : Replay root} {K : Set Mark} {r s : State}

open Parse State in
/-- **A grammar whose productions derive what they read.** -/
structure Grammar.Derives (R : Replay root) (g : Grammar) : Prop where
  /-- It accounts for what it reads. -/
  gathers : g.Gathers root
  /-- A statement is derived. -/
  statement {ctx : Context} {s : State} (h : ctx.newlinesMatter = true) :
    Parse.Derives R ∅ g.statement ctx s
      (fun K x t => R.Yields ctx K s [.statement x] t)
  /-- A block is derived. -/
  block {ctx : Context} {s : State} :
    Parse.Derives R ∅ g.block ctx s
      (fun K b t => R.Yields ctx K s [.block b] t)
  /-- An expression is derived. -/
  expression (min : Precedence) {ctx : Context} {s : State} :
    Parse.Derives R ∅ (g.expression min) ctx s
      (fun K e t => R.Yields ctx K s [.expression e] t)
  /-- An expression between brackets is derived. -/
  bracketed (point : TolerantPoint) (closer : Punctuator) {ctx : Context}
    {s : State} :
    Parse.Derives R ∅ (g.bracketed point closer) ctx s
      (fun K e t => R.Yields ctx.inBrackets K s [.expression e] t)
  /-- A first branch is derived. -/
  consequent {ctx : Context} {s : State} :
    Parse.Derives R ∅ g.consequent ctx s
      (fun K e t => R.Yields ctx.inBrackets K s [.expression e] t)
  /-- Arguments are derived. -/
  arguments {ctx : Context} {s : State} :
    Parse.Derives R ∅ g.arguments ctx s
      (fun K es t => R.Yields ctx.inBrackets K s (es.map .expression) t)
  /-- Elements are derived. -/
  elements {ctx : Context} {s : State} :
    Parse.Derives R ∅ g.elements ctx s
      (fun K es t => R.Yields ctx.inBrackets K s (es.map .expression) t)
  /-- Members are derived. -/
  members {ctx : Context} {s : State} :
    Parse.Derives R ∅ g.members ctx s (fun K ms t =>
      R.Yields ctx.inBrackets K s (ms.flatMap ObjectMember.parts) t)
  /-- Methods are derived. -/
  methods {ctx : Context} {s : State} :
    Parse.Derives R ∅ g.methods ctx s
      (fun K ms t => R.Yields ctx.inBrackets K s (ms.map .method) t)
  /-- Parameters are derived. -/
  parameters {ctx : Context} {s : State} :
    Parse.Derives R ∅ g.parameters ctx s
      (fun K ids t => R.Yields ctx.inBrackets K s (ids.map .identifier) t)
  /-- The parts of a header are derived. -/
  forHeader {ctx : Context} {s : State} :
    Parse.Derives R ∅ g.forHeader ctx s
      (fun K header t => R.Yields ctx.inBrackets K s header.parts t)
  /-- A name is derived. -/
  catchParameter {ctx : Context} {s : State} :
    Parse.Derives R ∅ g.catchParameter ctx s
      (fun K id t => R.Yields ctx.inBrackets K s [.identifier id] t)
  /-- Names are derived. -/
  importSpecifiers {ctx : Context} {s : State} :
    Parse.Derives R ∅ g.importSpecifiers ctx s (fun K xs t =>
      R.Yields ctx.inBrackets K s (xs.flatMap ImportSpecifier.parts) t)
  /-- Names are derived. -/
  exportSpecifiers {ctx : Context} {s : State} :
    Parse.Derives R ∅ g.exportSpecifiers ctx s (fun K xs t =>
      R.Yields ctx.inBrackets K s (xs.flatMap ExportSpecifier.parts) t)

/-- **The grammar of no levels** has no answers. -/
theorem Grammar.exhausted_derives : exhausted.Derives R where
  gathers := exhausted_gathers
  statement _ := Parse.tooDeep_derives
  block := Parse.tooDeep_derives
  expression _ := Parse.tooDeep_derives
  bracketed _ _ := Parse.tooDeep_derives
  consequent := Parse.tooDeep_derives
  arguments := Parse.tooDeep_derives
  elements := Parse.tooDeep_derives
  members := Parse.tooDeep_derives
  methods := Parse.tooDeep_derives
  parameters := Parse.tooDeep_derives
  forHeader := Parse.tooDeep_derives
  catchParameter := Parse.tooDeep_derives
  importSpecifiers := Parse.tooDeep_derives
  exportSpecifiers := Parse.tooDeep_derives

namespace State

variable {P : Expression → Prop} {b : Nat} {t : State}

/-- **Trees that were read from an offset on** lie between it and where the
last token read ends. -/
theorem ReadsRow.lies {ns : List Node} (h : Parts root P b ns t) :
    ∀ n ∈ ns, b ≤ n.span.start ∧ n.span.stop ≤ t.consumedTo := by
  intro n hn
  obtain ⟨start, stop, hstart, -, hstop, hspan, -⟩ := h.row.exists_of_mem hn
  rw [show n.span = ⟨start, stop⟩ from hspan]
  exact ⟨hstart, hstop⟩

theorem Reads.lies {mk : α → Node} {a : α} (h : Reads (As root P mk) b a t) :
    ∀ n ∈ [mk a], b ≤ n.span.start ∧ n.span.stop ≤ t.consumedTo := by
  refine List.forall_mem_singleton.2 ?_
  rw [show (mk a).span = ⟨b, t.consumedTo⟩ from h.2.1]
  exact ⟨Nat.le_refl _, Nat.le_refl _⟩

end State

namespace Parse

open ScriptTree.Action State

/-- **What is read between brackets**, behind what was read before. If it
lies between where it was begun and where it ended, it is marked as free. -/
theorem Derives.freed {α : Type} {p : Parse α} {parts : α → List Node}
    {F : List Node} (hp : Derives R ∅ p ctx s (fun K' a t =>
      R.Yields ctx (insert (.free s.here t.consumedTo) K') s (parts a) t))
    (hlies : Ensures root p ctx s (fun a t =>
      ∀ n ∈ parts a, s.here ≤ n.span.start ∧ n.span.stop ≤ t.consumedTo))
    (hF : R.Yields ctx K r F s) :
    Derives R K p ctx s (fun K' a t => R.Yields ctx K' r (F ++ parts a) t
      ∧ ∀ n ∈ parts a, n.span.FreeIn K') := by
  intro hctx hs a t hrun
  obtain ⟨hst, K', -, ⟨hyields, hlies⟩, hsame⟩ :=
    (hp.and_ensures hlies) hctx hs a t hrun
  refine ⟨hst, K ∪ insert (.free s.here t.consumedTo) K',
    Set.subset_union_left, ⟨hF.trans hyields, fun n hn => ?_⟩,
    fun hfits hclear => hsame hfits (hclear.mono ?_)⟩
  · exact ⟨s.here, t.consumedTo, .inr (Set.mem_insert _ _), hlies n hn⟩
  · exact (Set.subset_insert _ _).trans Set.subset_union_right

/-- It need not be known where it lies. -/
theorem Derives.behind {α : Type} {p : Parse α} {parts : α → List Node}
    {F : List Node} (hp : Derives R ∅ p ctx s
      (fun K' a t => R.Yields ctx.inBrackets K' s (parts a) t))
    (hF : R.Yields ctx K r F s) :
    Derives R K p ctx s
      (fun K' a t => R.Yields ctx K' r (F ++ parts a) t) :=
  (hp.marks (fun _ _ _ _ h => ⟨_, Set.subset_insert _ _, h.out⟩)).after hF

/-- What is left of a statement list, where it is known whether it is over
and where the next statement begins. -/
def statementsUnless (g : Grammar) (turns : Nat) (found : List Statement)
    (isOver : Bool) (start : Nat) : Action (List Statement) :=
  if isOver then return found.reverse
  else do
    match ← attempt (statement g) with
    | .ok s => statementsFrom g turns (s :: found)
    | .error error =>
      match ← abandon start error with
      | some s => statementsFrom g turns (s :: found)
      | none => statementsFrom g turns found

theorem statementsFrom_succ_run (g : Grammar) (turns : Nat)
    (found : List Statement) (ctx : Context) (s : State) :
    statementsFrom g (turns + 1) found ctx s
      = statementsUnless g turns found (s.aborted || s.atListEnd ctx) s.here
        ctx s := by
  unfold statementsUnless
  show (ite _ _ _ : Action _) ctx s = _
  split <;> rfl

variable {g : Grammar} (hg : g.Derives R)

include hg

/-! ## The productions in common use -/

theorem expression_derives :
    Derives R ∅ (expression g) ctx s
      (fun K e t => R.Yields ctx K s [.expression e] t) :=
  hg.expression _

theorem assignment_derives :
    Derives R ∅ (assignment g) ctx s
      (fun K e t => R.Yields ctx K s [.expression e] t) :=
  hg.expression _

theorem statement_derives (h : ctx.newlinesMatter = true) :
    Derives R ∅ (statement g) ctx s
      (fun K x t => R.Yields ctx K s [.statement x] t) := by
  refine .current (fun _ => rfl) ?_
  refine (record_yields _ (.refl ctx)).bind fun K _ t _ ht => ?_
  exact (hg.statement h).after ht

theorem expressionBefore_derives (closer : Punctuator) :
    Derives R ∅ (expressionBefore g closer) ctx s
      (fun K e t => R.Yields ctx K s [.expression e] t) := by
  refine (expression_derives hg).bind fun K e t _ he => ?_
  exact .current (fun _ => rfl)
    (.ite (fun _ => .pure he) (fun _ => unexpected_derives _))

/-- **A condition** stands between brackets. -/
theorem condition_derives :
    Derives R ∅ (condition g) ctx s
      (fun K e t => R.Encloses ctx.inBrackets K s [.expression e] t) := by
  refine .takeOff (expectPunctuator_takes .lParen) fun hopener => ?_
  refine (hg.bracketed .parenthesized .rParen).bind fun K e u _ he => ?_
  refine .takeOff (expectPunctuator_takes .rParen) fun hcloser => ?_
  exact .pure ⟨hopener, u, hcloser, rfl, he⟩

/-- **A condition is marked as free**, its brackets included. -/
theorem condition_freed {F : List Node} (hF : R.Yields ctx K r F s) :
    Derives R K (condition g) ctx s (fun K e t =>
      R.Yields ctx K r (F ++ [.expression e]) t ∧ e.span.FreeIn K) := by
  refine (Derives.freed ((condition_derives hg).mono
    (fun _ _ _ _ h => h.plain)) ((condition_ensures hg.gathers.sound).mono
    (fun _ _ _ h => h.lies)) hF).mono (fun _ _ _ _ h => ⟨h.1, ?_⟩)
  exact h.2 _ (List.mem_singleton_self _)

theorem parameterList_derives :
    Derives R ∅ (parameterList g) ctx s
      (fun K ids t => R.Yields ctx K s (ids.map .identifier) t) :=
  .skip (expectPunctuator_takes .lParen) (.refl ctx) fun hF =>
    hg.parameters.behind hF

/-! ## Statement lists -/

theorem statementsFrom_derives (hmatter : ctx.newlinesMatter = true)
    (turns : Nat) {found : List Statement}
    (hfound : R.Yields ctx K r (found.reverse.map .statement) s) :
    Derives R K (liftM (statementsFrom g turns found)) ctx s
      (fun K xs t => R.Yields ctx K r (xs.map .statement) t) := by
  induction turns generalizing s K found with
  | zero => exact .pure hfound
  | succ turns ih =>
    have hrun : ∀ ctx s,
        (liftM (statementsFrom g (turns + 1) found) : Parse _) ctx s
          = (liftM (statementsUnless g turns found
            (s.aborted || s.atListEnd ctx) s.here) : Parse _) ctx s := by
      intro ctx s
      show (Except.ok (statementsFrom g (turns + 1) found ctx s).1,
        (statementsFrom g (turns + 1) found ctx s).2) = _
      rw [statementsFrom_succ_run]
      rfl
    refine .congr (hrun ctx s) (fun hfits s' hs' => ?_) ?_
    · have hagrees := R.current hs'
      rw [hrun, R.going hs', (R.quiet hfits).going, atListEnd_eq,
        atListEnd_eq, hagrees.closes_eq, State.here, State.here,
        hagrees.span_eq]
      rfl
    unfold statementsUnless
    rw [lift_ite]
    refine .ite (fun _ => .pure hfound) (fun _ => ?_)
    refine .attempt ((statement_derives hg hmatter).after hfound)
      (statement_accounts hg.gathers) (fun K x t _ hx => ih hx.concat_node)
      (fun error t hst herror => ?_)
      (fun xs u hsu hunfit => .of_unfit (hfound.acts.trans hsu) hunfit)
    refine (abandon_accounts _ (fun _ => herror)).bind
      fun a u htu hclean => ?_
    have hrest : ∀ found, Action.Accounts root (statementsFrom g turns found)
        ctx u (fun _ v => ¬v.Clean root) := fun found =>
      (statementsFrom_accounts hg.gathers turns
        (.of_not_clean (s := u) .refl hclean)).mono
        (fun _ _ huv _ hv => hclean (Acts.clean huv hv))
    cases a with
    | some x => exact hrest _
    | none => exact hrest _

/-- **A statement list** comes out of its run. Line breaks matter in it. -/
theorem statementList_derives (listEnd : ListEnd) :
    Derives R ∅ (liftM (statementList g listEnd)) ctx s
      (fun K xs t => R.Yields (ctx.inList listEnd) K s
        (xs.map .statement) t) :=
  .withReader (k := (·.inList listEnd)) (·.inList listEnd) rfl
    (statementsFrom_derives hg rfl ctx.turns (.refl _))

end Parse

end ScriptTree
