import ScriptTree.Proofs.Mirror.Turns

/-!
# Grammars that read the same in both texts

A grammar is **mirrored** if each of its productions does the same in both
texts. Of most of them this is known wherever they end well. The lists
that leave their closing bracket to be read ask for more: a list that
comes to its end before a bracket may have come to the end of the part
just as well, and only the bracket tells the two apart. So they are
followed where the bracket is read too.

Statement lists are dealt with here. They need no bracket, since the end
of the text closes them all.
-/

namespace ScriptTree

variable {M : Mirror} {E : State → Prop} {H B : Prop} {ctx : Context}
  {s s' t t' : State} {S : State → State → Prop} {α β : Type}

/-- **Productions that do the same in both texts**, begun where `P`
holds. -/
abbrev Parse.Alike (M : Mirror) (E : State → Prop)
    (P : State → State → Prop) [Movable α] [HasNodes α] (p q : Parse α) :
    Prop :=
  ∀ {H : Prop} {ctx : Context} {s s' : State}, (H → P s s') →
    Parse.Mirrors M E H False M.move p q ctx s s' M.Along

open Parse in
/-- **A grammar that reads the same in both texts.** -/
structure Grammar.Mirrored (M : Mirror) (g : Grammar) : Prop where
  /-- It reads what it should in the text. -/
  sound : g.Sound M.root (fun _ => True)
  /-- It reads what it should in the other text. -/
  sound' : g.Sound M.image (fun _ => True)
  /-- An error in what it reads shows. -/
  abreast : GoAbreast (toleranceFamily M.options) fun _ => g
  /-- Statements are the same. -/
  statement : Alike M M.Fits M.Start g.statement g.statement
  /-- Blocks are the same. -/
  block : Alike M M.Fits M.Start g.block g.block
  /-- Expressions are the same. -/
  expression (min : Precedence) :
    Alike M M.Fits M.Start (g.expression min) (g.expression min)
  /-- Expressions between brackets are the same. -/
  bracketed (point : TolerantPoint) (closer : Punctuator) :
    Alike M M.Fits M.Start (g.bracketed point closer)
      (g.bracketed point closer)
  /-- First branches are the same. -/
  consequent : Alike M M.Fits M.Start g.consequent g.consequent
  /-- Arguments are the same. -/
  arguments : Alike M M.Fits M.Along g.arguments g.arguments
  /-- Elements are the same. -/
  elements : Alike M M.More M.Along g.elements g.elements
  /-- Members are the same. -/
  members : Alike M M.More M.Along g.members g.members
  /-- Methods are the same. -/
  methods : Alike M M.More M.Along g.methods g.methods
  /-- Parameters are the same. -/
  parameters : Alike M M.Fits M.Along g.parameters g.parameters
  /-- Headers are the same. -/
  forHeader : Alike M M.More M.Along g.forHeader g.forHeader
  /-- Names are the same. -/
  catchParameter : Alike M M.Fits M.Start g.catchParameter g.catchParameter
  /-- Names are the same. -/
  importSpecifiers :
    Alike M M.More M.Along g.importSpecifiers g.importSpecifiers
  /-- Names are the same. -/
  exportSpecifiers :
    Alike M M.More M.Along g.exportSpecifiers g.exportSpecifiers
  /-- Parameters before an arrow are seen as such from in front of them. -/
  follows {ctx : Context} {s t : State} {ids : List Identifier}
    {x : Scanner} (hctx : M.image.Within ctx) (hs : s.Good M.image)
    (hrun : g.parameters ctx s = (.ok ids, t))
    (harrow : t.current.isPunctuator .arrow = true)
    (htoken : x.nextSignificant.token = s.current)
    (hscanner : x.nextSignificant.scanner = s.scanner) :
    x.parameterListFollows = true

theorem Parse.tooDeep_alike [M.Lawful] [M.Backward E] [Movable α]
    [HasNodes α] {P : State → State → Prop} :
    Alike M E P (tooDeep : Parse α) tooDeep :=
  fun _ => tooDeep_mirrors

/-- **The grammar of no levels is mirrored**: no run of it ends well. -/
theorem Grammar.exhausted_mirrored [M.Lawful] : exhausted.Mirrored M where
  sound := exhausted_sound (fun _ _ => trivial)
  sound' := exhausted_sound (fun _ _ => trivial)
  abreast := exhausted_abreast (fun _ => rfl)
  statement := Parse.tooDeep_alike
  block := Parse.tooDeep_alike
  expression _ := Parse.tooDeep_alike
  bracketed _ _ := Parse.tooDeep_alike
  consequent := Parse.tooDeep_alike
  arguments := Parse.tooDeep_alike
  elements := Parse.tooDeep_alike
  members := Parse.tooDeep_alike
  methods := Parse.tooDeep_alike
  parameters := Parse.tooDeep_alike
  forHeader := Parse.tooDeep_alike
  catchParameter := Parse.tooDeep_alike
  importSpecifiers := Parse.tooDeep_alike
  exportSpecifiers := Parse.tooDeep_alike
  follows _ _ hrun := nomatch congrArg Prod.fst hrun

namespace Mirror

/-- Where a list ends in the first text it ends in the other one. -/
theorem Start.atListEnd (h : M.Start s s')
    (hend : s.atListEnd ctx = true) :
    s'.atListEnd (M.reflect ctx) = true := by
  rcases h with h | h
  · rw [← hend]
    unfold State.atListEnd
    rw [h.current_eq]
    rfl
  · exact Bool.or_eq_true_iff.2 (.inl h.isEof)

theorem Fresh.atListEnd_eq (h : M.Fresh s s') :
    s'.atListEnd (M.reflect ctx) = s.atListEnd ctx := by
  unfold State.atListEnd
  rw [h.current_eq]
  rfl

theorem Start.good' (h : M.Start s s') : s'.Good M.image :=
  h.elim (·.good') (·.good')

theorem Start.aborted_eq' [M.Lawful] (h : M.Start s s') :
    s'.aborted = false :=
  h.good'.aborted_eq Lawful.tolerant

end Mirror

namespace Parse

open ScriptTree.Action Mirror

variable {g : Grammar} (hg : g.Mirrored M)

include hg

/-! ## The productions in common use -/

theorem expression_alike :
    Alike M M.Fits M.Start (expression g) (expression g) :=
  hg.expression _

theorem assignment_alike :
    Alike M M.Fits M.Start (assignment g) (assignment g) :=
  hg.expression _

variable [M.Lawful]

theorem statement_alike :
    Alike M M.Fits M.Start (statement g) (statement g) := by
  intro H ctx s s' h
  refine .begin ((statement_ensures hg.sound).mono (fun _ _ _ h => h.1)) h ?_
  refine .look s.current s'.current rfl rfl ?_
  exact (record_mirrors _ _ And.right).seq
    (fun _ _ _ => hg.statement (fun h => h.2.start))

theorem expressionBefore_alike (closer : Punctuator) :
    Alike M M.Fits M.Start (expressionBefore g closer)
      (expressionBefore g closer) := by
  intro H ctx s s' h
  refine (expression_alike hg h).bind (fun e t t' => ?_)
  refine .look t.current t'.current rfl rfl (.only ?_ (fun _ => ?_)
    (fun _ => unexpected_ensures _))
  · rintro ⟨_, h⟩ hclose
    rcases h.start with h | h
    · rw [h.current_eq]
      exact hclose
    · simp only [closerIsMissing, h.isEof, Bool.true_or, Bool.or_true]
  · exact .pure And.right (fun h => h.resolve_left id) rfl

theorem condition_alike :
    Alike M M.Fits M.Start (condition g) (condition g) := by
  intro H ctx s s' h
  refine (expectPunctuator_mirrors (by decide) h).discard.seq
    (fun _ t t' => ?_)
  refine (hg.bracketed _ _ (fun h => h.2.start)).bind (fun e u u' => ?_)
  refine (expectPunctuator_mirrors (by decide)
    (fun h => h.2.start)).discard.seq (fun _ v v' => ?_)
  exact .pure And.right (fun h => h.resolve_left id) rfl

theorem parameterList_alike :
    Alike M M.Fits M.Start (parameterList g) (parameterList g) := by
  intro H ctx s s' h
  exact (expectPunctuator_mirrors (by decide) h).discard.seq
    (fun _ _ _ => hg.parameters And.right)

/-! ## Statement lists -/

omit hg in
/-- **What is tried** in the first text does not fail. -/
theorem Mirrors.attempt [HasNodes α] [HasNodes β] {μ : α → α}
    {ν : β → β} [hE : M.Backward E] {p q : Parse α}
    {f f' : Except ParseError α → Action β}
    (habreast : Abreast (toleranceFamily M.options) True fun _ => p)
    (hstart : H → M.Start s s')
    (hp : Mirrors M E H False μ p q ctx s s' S)
    (hok : ∀ a t t', Mirrors M E (H ∧ S t t') (B ∨ M.Marked a) ν
      (liftM (f (.ok a))) (liftM (f' (.ok (μ a)))) ctx t t' S')
    (herror : ∀ e t, s.Leads M.root t → Mirrors M E False B ν
      (liftM (f (.error e))) (liftM (f' (.error e))) ctx t t S')
    (hleaves : ∀ e t, M.root.Within ctx →
      (toleranceFamily M.options).Leaves true
        ((.error e, t) : Except ParseError α × State) →
      ¬M.Fits (f (.error e) ctx t).2) :
    Mirrors M E H B ν (liftM (Action.attempt p >>= f))
      (liftM (Action.attempt q >>= f')) ctx s s' S' := by
  have hrun (g : Except ParseError α → Action β) (p : Parse α)
      (ctx : Context) (s : State) :
      (liftM (Action.attempt p >>= g) : Parse β) ctx s
        = (liftM (g (p ctx s).1) : Parse β) ctx (p ctx s).2 := rfl
  refine ⟨fun hctx hs => ?_, fun h hctx hs b u hrun' hu => ?_,
    fun h hctx hs b u hrun' hu hunmarked => ?_⟩ <;>
    rw [hrun] at * <;> obtain ⟨hst, _⟩ := hp.runs hctx hs
  · match hpr : p ctx s with
    | (.ok a, t) =>
      rw [hpr] at hst
      obtain ⟨htu, h⟩ := (hok a t t).runs hctx hst.good
      exact ⟨hst.trans htu, h⟩
    | (.error e, t) =>
      rw [hpr] at hst
      obtain ⟨htu, h⟩ := (herror e t hst).runs hctx hst.good
      exact ⟨hst.trans htu, h⟩
  · match hpr : p ctx s with
    | (.ok a, t) =>
      rw [hpr] at hst hrun'
      exact (hok a t t).marks (.inl h) hctx hst.good hrun' hu
    | (.error e, t) =>
      rw [hpr] at hst hrun'
      exact (herror e t hst).marks h hctx hst.good hrun' hu
  · match hpr : p ctx s with
    | (.ok a, t) =>
      rw [hpr] at hst hrun'
      obtain ⟨htu, _⟩ := (hok a t t).runs.of_run hctx hst.good hrun'
      have hpart : ¬M.Marked a := fun hmarked => hunmarked
        ((hok a t t).marks (.inr hmarked) hctx hst.good hrun' hu)
      obtain ⟨t', hq, hS⟩ := hp.same h hctx hs hpr (hE.back htu hu) hpart
      obtain ⟨u', hq', hS'⟩ :=
        (hok a t t').same ⟨h, hS⟩ hctx hst.good hrun' hu hunmarked
      exact ⟨u', by rw [hq]; exact hq', hS'⟩
    | (.error e, t) =>
      -- The failure shows in the end.
      rw [hpr] at hrun'
      have hend := hleaves e t hctx
        (leaves_of_error habreast hctx (hstart h) hpr)
      rw [show (f (.error e) ctx t).2 = u from congrArg Prod.snd hrun']
        at hend
      exact (hend (hE.fits hu)).elim

omit hg

/-- What a statement list does about a statement that has been tried. -/
def afterStatement (found : List Statement) (start : Nat) :
    Except ParseError Statement →
      Action (Turn (List Statement) (List Statement))
  | .ok x => return .again (x :: found)
  | .error error =>
    (fun x? => .again (x?.toList ++ found)) <$> abandon start error

theorem statementsTurn_eq (found : List Statement) :
    statementsTurn g found = (do
      if (← get).aborted || (← atListEnd) then return .done found.reverse
      else
        let start ← here
        attempt (statement g) >>= afterStatement found start) := by
  unfold statementsTurn
  refine bind_congr (fun _ => bind_congr (fun _ => ?_))
  refine ite_congr rfl (fun _ => rfl) (fun _ => ?_)
  refine bind_congr (fun start => bind_congr (fun r => ?_))
  cases r with
  | ok x => rfl
  | error error =>
    rw [afterStatement, map_eq_pure_bind]
    refine bind_congr (fun x? => ?_)
    cases x? <;> rfl

/-- A turn that does not leave the list tries a statement. -/
theorem statementsTurn_run {found : List Statement}
    (haborted : s.aborted = false) (hend : s.atListEnd ctx = false) :
    statementsTurn g found ctx s
      = (attempt (statement g) >>= afterStatement found s.here) ctx s := by
  rw [statementsTurn_eq]
  show (ite _ _ _ : Action _) ctx s = _
  rw [haborted, hend]
  rfl

/-- What was found is not lost with a statement that is given up. -/
theorem afterStatement_error {start start' : Nat} (error : ParseError)
    (found : List Statement) (hcut : IsCut M.root.source start)
    (hstart : start = s.here ∨ start < s.consumedTo) :
    Mirrors M M.Fits False (M.Marked found) M.move
      (liftM (afterStatement found start (.error error)))
      (liftM (afterStatement (M.move found) start' (.error error))) ctx s s
      M.Along := by
  have hgiven : Mirrors M M.Fits False False M.move
      (liftM (abandon start error)) (liftM (abandon start' error)) ctx s s
      M.Along :=
    ⟨.lift ((abandon_ensures (fun _ => True) error hcut hstart).mono
      (fun _ _ _ _ => trivial)), False.elim, False.elim⟩
  unfold afterStatement
  rw [lift_map, lift_map]
  refine hgiven.map (fun x? => ?_) (fun x? h => ?_)
  · cases x? <;> rfl
  · cases x? with
    | some x => exact marked_cons.2 (h.symm.imp_left marked_some.1)
    | none => exact h.resolve_right marked_none

/-- A statement that fails has left the part behind it. -/
theorem afterStatement_not_fits (found : List Statement) (start : Nat)
    {error : ParseError} (hctx : M.root.Within ctx)
    (h : (toleranceFamily M.options).Leaves true
      ((.error error, s) : Except ParseError Statement × State)) :
    ¬M.Fits (afterStatement found start (.error error) ctx s).2 :=
  not_fits_of_abandon start hctx h

include hg

/-- **One turn of a statement list.** -/
theorem statementsTurn_mirrors (found : List Statement) (s s' : State) :
    Mirrors M M.Fits (M.Along s s') (M.Marked found) M.move
      (liftM (statementsTurn g found))
      (liftM (statementsTurn g (M.move found))) ctx s s' M.Along := by
  have hpast : Ensures M.root (statement g) ctx s
      (fun _ t => s.here < t.consumedTo) :=
    (statement_ensures hg.sound).mono (fun _ _ _ h => h.1)
  -- Where the list goes on a statement is read.
  refine .of_end (P := s.atListEnd ctx = true ∨ M.More s) ?_ ?_
  · rw [statementsTurn_eq, statementsTurn_eq]
    refine .lift_bind (.look s s' rfl rfl (.lift_bind (.look (s.atListEnd ctx)
      (s'.atListEnd (M.reflect ctx)) rfl rfl ?_)))
    rw [lift_ite, lift_ite]
    refine .ite (fun h => ?_) (fun _ => ?_) (fun _ => ?_)
    · rw [h.1.start.aborted_eq, h.1.start.aborted_eq', Bool.false_or,
        Bool.false_or]
      rcases h.2 with hend | hmore
      · rw [hend, h.1.start.atListEnd hend]
      · rw [(h.1.inside hmore).atListEnd_eq]
    · exact .pure And.left marked_reverse.2
        (congrArg Turn.done List.map_reverse.symm)
    · refine .lift_bind (.look s.here s'.here rfl rfl ?_)
      refine .attempt (Plan.statement.abreast hg.abreast)
        (fun h => h.1.start)
        (statement_alike hg (fun h => h.1.start)) (fun x t t' => ?_)
        (fun e t hst => ?_) (fun e t hctx => ?_)
      · exact .pure And.right (fun h => marked_cons.2 h.symm) rfl
      · exact afterStatement_error e found hst.good_start.isCut_here
          hst.here_eq_or_past
      · exact afterStatement_not_fits found s.here hctx
  · rintro h a hctx hs t hrun hst ht
    refine or_iff_not_imp_left.2 (fun hend => ?_)
    have hrun : (liftM (afterStatement found s.here (statement g ctx s).1) :
        Parse _) ctx (statement g ctx s).2 = (.ok a, t) := by
      rw [← hrun]
      show _ = (Except.ok (statementsTurn g found ctx s).1,
        (statementsTurn g found ctx s).2)
      rw [statementsTurn_run h.start.aborted_eq (Bool.eq_false_iff.2 hend)]
      rfl
    match hread : statement g ctx s with
    | (.ok x, u) =>
      rw [hread] at hrun
      cases hrun
      exact ⟨u, hst, ht, (hpast.of_run hctx hs hread).2⟩
    | (.error e, u) =>
      rw [hread] at hrun
      have hend := afterStatement_not_fits found s.here hctx
        (leaves_of_error (Plan.statement.abreast hg.abreast) hctx h.start
          hread)
      rw [show (afterStatement found s.here (.error e) ctx u).2 = t from
        congrArg Prod.snd hrun] at hend
      exact absurd ht hend

/-- **Statement lists are the same in both texts.** -/
theorem statementList_alike (listEnd : ListEnd) :
    Alike M M.Fits M.Along (liftM (statementList g listEnd))
      (liftM (statementList g listEnd)) := by
  intro H ctx s s' h
  have hturns := Nat.lt_succ_self (byteLength M.text)
  have hturns' := Nat.lt_succ_self (byteLength M.other)
  have hrun := Loop.run_mirrors (ctx.inList listEnd)
    (statementsTurn_mirrors hg) (statementsLoop_proceeds hturns hg.sound)
    (statementsLoop_proceeds hturns' hg.sound') [] s s'
  exact ⟨fun hctx hs => hrun.runs (hctx.inList listEnd) hs, False.elim,
    fun hH hctx => hrun.same (h hH) (hctx.inList listEnd)⟩

end Parse

end ScriptTree
