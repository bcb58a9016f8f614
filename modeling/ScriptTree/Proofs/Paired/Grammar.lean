import ScriptTree.Proofs.Paired.Reading

/-!
# Grammars whose brackets are paired

A production at a tolerant point may fail inside brackets it has opened
itself. Passing over tokens starts from there with no bracket open, so what
becomes an error may have more brackets that open than close. Of the tokens
around it nothing is lost: they are balanced if those of the error are.

A grammar is **paired** if each of its productions is; that it is sound is
part of it, since what is refused as a target becomes an error with the
span of what was read.
-/

namespace ScriptTree

variable {root ctx : Context} {r s t : State} {α : Type}

open State

/-- What becomes of an error is an error, as far as brackets go. -/
class Mends (α : Type) [Mendable α] (parts : outParam (α → List Node)) :
    Prop where
  /-- Tokens that are paired with the error are paired with what stands for
  it. -/
  paired {e : ErrorNode} {ts : List Token} (h : Paired ts [.error e]) :
    Paired ts (parts (Mendable.ofError e))

instance : Mends Expression (fun e => [.expression e]) :=
  ⟨fun h => .wrap h rfl rfl⟩
instance : Mends ObjectMember ObjectMember.parts := ⟨id⟩
instance : Mends Declarator Declarator.parts := ⟨id⟩

namespace Parse

open ScriptTree.Action

/-! ## At a tolerant point -/

section Recovery

variable [Mendable α] {parts : α → List Node} [Mends α parts]

/-- **An error that is mended** takes up all that was read since its point
was entered. -/
theorem mend_pairs (point : TolerantPoint) (error : ParseError)
    (hrt : r.Leads root s) :
    Ensures root (Mendable.ofError <$> mend point r.here error : Parse α)
      ctx s (fun a t => r.Pairs (parts a) t) := by
  refine .map ((mend_ensures (fun _ => True) point error
    hrt.good_start.isCut_here hrt.here_eq_or_past).mono fun node t hst h => ?_)
  obtain ⟨ts, htaken, hts⟩ := Pairs.error (hrt.trans hst) h.2.spans h.1
  exact ⟨ts, htaken, Mends.paired hts⟩

/-- **At a tolerant point** the brackets are those read elsewhere, or those
of an error. -/
theorem tolerant_pairs (point : TolerantPoint) {p : Parse α}
    (hp : Ensures root p ctx s (fun a t => s.Pairs (parts a) t)) :
    Ensures root (tolerant point p) ctx s
      (fun a t => s.Pairs (parts a) t) := by
  intro hctx hs
  obtain ⟨hst, hQ⟩ := hp hctx hs
  rw [tolerant_run]
  generalize p ctx s = run at hst hQ
  obtain ⟨error | a, t⟩ := run
  · have hmended : Ensures root (Mendable.ofError <$> mend point s.here error)
        ctx t (fun a t => s.Pairs (parts a) t) := mend_pairs point error hst
    obtain ⟨htu, hmended⟩ := hmended hctx hst.good
    exact ⟨hst.trans htu, hmended⟩
  · exact ⟨hst, hQ⟩

theorem missingSeparator_pairs (point : TolerantPoint)
    (expected : String) :
    Ensures root (missingSeparator point expected : Parse α) ctx s
      (fun a t => s.Pairs (parts a) t) := by
  refine .look s.current rfl (.of_good fun _ hs => ?_)
  have h : Ensures root (Mendable.ofError <$> mend point s.here
      (.ofToken expected s.current) : Parse α) ctx s
      (fun a t => s.Pairs (parts a) t) := mend_pairs point _ (.refl hs)
  rwa [map_eq_pure_bind] at h

variable {item : Parse α} (hitem : ∀ s, Ensures root item ctx s
  (fun a t => s.Pairs (parts a) t))

include hitem

theorem separatedFrom_pairs (point : TolerantPoint) (closer : Punctuator)
    (turns : Nat) {found : List α}
    (hfound : r.Pairs (found.reverse.flatMap parts) s) :
    Ensures root (separatedFrom point closer item turns found) ctx s
      (fun xs t => r.Pairs (xs.flatMap parts) t) := by
  -- A turn adds an item, and another one where a separator is missing.
  induction turns generalizing s found with
  | zero => exact .pure hfound
  | succ turns ih =>
    refine .look (s.current.isPunctuator closer) rfl
      (.ite (fun _ => .pure hfound) (fun _ => ?_))
    refine (tolerant_pairs point (hitem s)).bind fun x t _ hx => ?_
    refine (Ensures.lift (eat_pairs .comma rfl)).bind fun _ u _ hu => ?_
    have hfound := (hfound.concat hx).later hu
    refine .ite (fun _ => ih hfound) (fun _ => ?_)
    refine .look (u.current.isPunctuator closer) rfl
      (.ite (fun _ => ih hfound) (fun _ => .ite (fun _ => ?_) (fun _ => ?_)))
    · refine (Ensures.lift (eat_pairs .comma rfl).discard).bind
        fun _ v _ ⟨_, hv⟩ => ?_
      exact ih (hfound.later hv)
    · refine (missingSeparator_pairs point _).bind fun skipped v _ hv => ?_
      refine (Ensures.lift (eat_pairs .comma rfl).discard).bind
        fun _ w _ ⟨_, hw⟩ => ?_
      exact ih ((hfound.concat hv).later hw)

/-- **Items with commas between them.** -/
theorem separated_pairs (point : TolerantPoint) (closer : Punctuator) :
    Ensures root (separated point closer item) ctx s
      (fun xs t => s.Pairs (xs.flatMap parts) t) :=
  .look ctx rfl (separatedFrom_pairs hitem point closer _ (.refl s))

end Recovery

/-! ## Anywhere else -/

/-- **A statement that is given up** is an error, with all that was taken of
it; if there is no such statement nothing was. -/
theorem abandon_error (start : Nat) (error : ParseError) :
    Action.Ensures root (abandon start error) ctx s (fun x? t =>
      match x? with
      | some x => ∃ e : ErrorNode, x = .error e
        ∧ e.span = ⟨start, t.consumedTo⟩ ∧ start < t.consumedTo
      | none => t.consumedTo ≤ start) := by
  refine (reportError_ensures _ error).bind fun _ t _ _ => ?_
  refine (record_ensures _).bind fun _ u _ _ => ?_
  refine .look ctx rfl (.look u.here rfl ?_)
  refine (skipStatement_ensures _ 0 _).bind fun _ v _ _ => ?_
  refine .look (v.spanFrom start) rfl (.ite (fun h => .pure ?_)
    (fun h => .look _ rfl (.pure ⟨_, rfl, ?_⟩)))
  · have hempty : max v.consumedTo start ≤ start := of_decide_eq_true h
    exact Nat.le_trans (Nat.le_max_left _ _) hempty
  · have hempty : ¬max v.consumedTo start ≤ start :=
      of_decide_eq_false (Bool.eq_false_iff.2 h)
    have hpast : start < v.consumedTo := by omega
    exact ⟨spanFrom_eq hpast, hpast⟩

/-- **What was read of a statement** that is given up is an error. -/
theorem abandon_pairs (error : ParseError) (hrs : r.Leads root s) :
    Action.Ensures root (abandon r.here error) ctx s
      (fun x? t => r.Pairs (x?.toList.map .statement) t) := by
  refine (abandon_error r.here error).mono fun x? t hst h => ?_
  have hrt := hrs.trans hst
  cases x? with
  | none => exact .of_taken_eq (hrt.taken_eq_of_le h)
  | some x =>
    obtain ⟨e, rfl, hspan, hpast⟩ := h
    exact .wrap (.error hrt hspan hpast) rfl rfl

end Parse

open Parse in
/-- **A grammar whose brackets are paired.** -/
structure Grammar.Pairs (root : Context) (g : Grammar) : Prop where
  /-- It reads what it should. -/
  sound : g.Sound root (fun _ => True)
  /-- A statement is read. -/
  statement {ctx : Context} {s : State} :
    Ensures root g.statement ctx s (fun x t => s.Pairs [.statement x] t)
  /-- A block is read. -/
  block {ctx : Context} {s : State} :
    Ensures root g.block ctx s (fun b t => s.Pairs [.block b] t)
  /-- An expression is read. -/
  expression (min : Precedence) {ctx : Context} {s : State} :
    Ensures root (g.expression min) ctx s
      (fun e t => s.Pairs [.expression e] t)
  /-- An expression is read between brackets. -/
  bracketed (point : TolerantPoint) (closer : Punctuator) {ctx : Context}
    {s : State} :
    Ensures root (g.bracketed point closer) ctx s
      (fun e t => s.Pairs [.expression e] t)
  /-- An expression is read as a first branch. -/
  consequent {ctx : Context} {s : State} :
    Ensures root g.consequent ctx s (fun e t => s.Pairs [.expression e] t)
  /-- Arguments are read, with the bracket that closes them. -/
  arguments {ctx : Context} {s : State} :
    Ensures root g.arguments ctx s
      (fun es t => s.Closes .rParen (es.map .expression) t)
  /-- Elements are read. -/
  elements {ctx : Context} {s : State} :
    Ensures root g.elements ctx s
      (fun es t => s.Pairs (es.map .expression) t)
  /-- Members are read. -/
  members {ctx : Context} {s : State} :
    Ensures root g.members ctx s
      (fun ms t => s.Pairs (ms.flatMap ObjectMember.parts) t)
  /-- Methods are read. -/
  methods {ctx : Context} {s : State} :
    Ensures root g.methods ctx s (fun ms t => s.Pairs (ms.map .method) t)
  /-- Parameters are read, with the bracket that closes them. -/
  parameters {ctx : Context} {s : State} :
    Ensures root g.parameters ctx s
      (fun ids t => s.Closes .rParen (ids.map .identifier) t)
  /-- The parts of a header are read. -/
  forHeader {ctx : Context} {s : State} :
    Ensures root g.forHeader ctx s (fun header t => s.Pairs header.parts t)
  /-- A name is read. -/
  catchParameter {ctx : Context} {s : State} :
    Ensures root g.catchParameter ctx s
      (fun id t => s.Pairs [.identifier id] t)
  /-- Names are read. -/
  importSpecifiers {ctx : Context} {s : State} :
    Ensures root g.importSpecifiers ctx s
      (fun xs t => s.Pairs (xs.flatMap ImportSpecifier.parts) t)
  /-- Names are read. -/
  exportSpecifiers {ctx : Context} {s : State} :
    Ensures root g.exportSpecifiers ctx s
      (fun xs t => s.Pairs (xs.flatMap ExportSpecifier.parts) t)

/-- **The grammar of no levels** reads nothing. -/
theorem Grammar.exhausted_pairs : exhausted.Pairs root where
  sound := exhausted_sound (fun _ _ => trivial)
  statement := Parse.tooDeep_ensures
  block := Parse.tooDeep_ensures
  expression _ := Parse.tooDeep_ensures
  bracketed _ _ := Parse.tooDeep_ensures
  consequent := Parse.tooDeep_ensures
  arguments := Parse.tooDeep_ensures
  elements := Parse.tooDeep_ensures
  members := Parse.tooDeep_ensures
  methods := Parse.tooDeep_ensures
  parameters := Parse.tooDeep_ensures
  forHeader := Parse.tooDeep_ensures
  catchParameter := Parse.tooDeep_ensures
  importSpecifiers := Parse.tooDeep_ensures
  exportSpecifiers := Parse.tooDeep_ensures

namespace Parse

open ScriptTree.Action

variable {g : Grammar} (hg : g.Pairs root)

include hg

/-! ## The productions in common use -/

theorem expression_pairs :
    Ensures root (expression g) ctx s
      (fun e t => s.Pairs [.expression e] t) :=
  hg.expression _

theorem assignment_pairs :
    Ensures root (assignment g) ctx s
      (fun e t => s.Pairs [.expression e] t) :=
  hg.expression _

theorem statement_pairs :
    Ensures root (statement g) ctx s
      (fun x t => s.Pairs [.statement x] t) := by
  refine .look s.current rfl ?_
  refine (Ensures.lift (Ensures.still (record_ensures _))).bind
    fun _ t _ ht => ?_
  exact hg.statement.mono fun _ _ _ h => ht.trans h

theorem expressionBefore_pairs (closer : Punctuator) :
    Ensures root (expressionBefore g closer) ctx s
      (fun e t => s.Pairs [.expression e] t) := by
  refine (expression_pairs hg).bind fun e t _ he => ?_
  refine .look t.current rfl (.ite (fun _ => .pure he) (fun _ => ?_))
  exact unexpected_ensures _

/-- **A condition** is read with its brackets. -/
theorem condition_pairs :
    Ensures root (condition g) ctx s
      (fun e t => s.Brackets .lParen [.expression e] t) := by
  refine (expectPunctuator_shifts .lParen).discard.bind
    fun _ t _ ⟨_, hp, ht⟩ => ?_
  refine (hg.bracketed .parenthesized .rParen).bind fun e u _ he => ?_
  exact (close_pairs .rParen he).bind fun _ v _ hv =>
    .pure (.open_ hp ht rfl hv)

/-- **Parameters** are read with their brackets. -/
theorem parameterList_pairs :
    Ensures root (parameterList g) ctx s
      (fun ids t => s.Pairs (ids.map .identifier) t) := by
  refine (expectPunctuator_shifts .lParen).discard.bind
    fun _ t _ ⟨_, hp, ht⟩ => ?_
  exact hg.parameters.mono fun _ _ _ h => (Brackets.open_ hp ht rfl h).plain

/-! ## Statement lists -/

theorem statementsFrom_pairs (turns : Nat) {found : List Statement}
    (hfound : r.Pairs (found.reverse.map .statement) s) :
    Action.Ensures root (statementsFrom g turns found) ctx s
      (fun xs t => r.Pairs (xs.map .statement) t) := by
  induction turns generalizing s found with
  | zero => exact .pure hfound
  | succ turns ih =>
    refine .look s rfl (.look (s.atListEnd ctx) rfl ?_)
    refine .ite (fun _ => .pure hfound) (fun _ => .look s.here rfl ?_)
    refine (statement_pairs hg).attempt.bind fun x? t hst hx => ?_
    cases x? with
    | ok x => exact ih (hfound.concat_node (hx x rfl))
    | error error =>
      refine (abandon_pairs error hst).bind fun x? u _ hx => ?_
      cases x? with
      | some x => exact ih (hfound.concat_node hx)
      | none => exact ih (hfound.later hx)

/-- **A statement list.** -/
theorem statementList_pairs (listEnd : ListEnd) :
    Action.Ensures root (statementList g listEnd) ctx s
      (fun xs t => s.Pairs (xs.map .statement) t) := by
  intro hctx hs
  exact statementsFrom_pairs hg ctx.turns (.refl s) (hctx.inList listEnd) hs

end Parse

end ScriptTree
