import ScriptTree.Proofs.Parse.Outcome
import ScriptTree.Proofs.Progress.Reading

/-!
# Parsing ends, and what it costs

Two bounds on a parse, for every text, every choice of options and every
operator table. None of its loops runs out of turns, since each turn but
the last moves on (`Grammar.LoopsProceed`); so the bound that the loops
are written with has no influence on what they come to. And a next token
is looked for at most once for every byte of the text, and once more for
the first one: no token is passed without passing text, and at the end of
the text the parse stays where it is.
-/

namespace ScriptTree

/-! ## The loops -/

open Parse in
/-- **A grammar whose loops make progress**, all of them and wherever in a
parse they are entered. -/
structure Grammar.LoopsProceed (root : Context) (g : Grammar) : Prop where
  /-- The statements of a list. -/
  statements : (statementsLoop g).Proceeds root
  /-- The clauses of a switch. -/
  switchCases : (switchCasesLoop g).Proceeds root
  /-- The arguments of a call. -/
  arguments :
    (separatedLoop .argument .rParen (assignment g)).Proceeds root
  /-- The elements of an array. -/
  elements :
    (separatedLoop .listElement .rBracket (assignment g)).Proceeds root
  /-- The members of an object. -/
  members :
    (separatedLoop .listElement .rBrace (objectMember g)).Proceeds root
  /-- The methods of a class. -/
  methods : (classMethodsLoop g).Proceeds root
  /-- The parameters of a function. -/
  parameters : parameterNamesLoop.Proceeds root
  /-- The names of an import list. -/
  importSpecifiers : (specifiersLoop importSpecifier).Proceeds root
  /-- The names of an export list. -/
  exportSpecifiers : (specifiersLoop exportSpecifier).Proceeds root
  /-- The bindings of a declaration. -/
  bindings : (bindingsLoop g).Proceeds root
  /-- The operators behind an operand. -/
  operators (min : Precedence) : (operatorLoop g min).Proceeds root
  /-- The tokens up to the delimiter of a tolerant point. -/
  skipTo (point : TolerantPoint) : (skipToLoop point).Proceeds root
  /-- The tokens up to the end of a statement. -/
  skipStatement : skipStatementLoop.Proceeds root

open Parse in
/-- **The loops of a sound grammar make progress** if they may take more
turns than there are bytes in the text. -/
theorem Grammar.Sound.loopsProceed {root : Context}
    {P : Expression → Prop} {g : Grammar} (hg : g.Sound root P)
    (hturns : byteLength root.source < root.turns) :
    g.LoopsProceed root where
  statements := statementsLoop_proceeds hturns hg
  switchCases := switchCasesLoop_proceeds hturns hg
  arguments := separatedLoop_proceeds hturns hg.mend_expression
    (assignment_ensures hg)
  elements := separatedLoop_proceeds hturns hg.mend_expression
    (assignment_ensures hg)
  members := separatedLoop_proceeds hturns mend_member
    (objectMember_ensures hg)
  methods := classMethodsLoop_proceeds hturns hg
  parameters := parameterNamesLoop_proceeds hturns
  importSpecifiers := importSpecifiersLoop_proceeds hturns
  exportSpecifiers := exportSpecifiersLoop_proceeds hturns
  bindings := bindingsLoop_proceeds hturns hg
  operators := operatorLoop_proceeds hturns hg
  skipTo := skipToLoop_proceeds hturns
  skipStatement := skipStatementLoop_proceeds hturns

/-! ## The tokens -/

namespace State

variable {root : Context} {s t : State}

theorem bump_moves : (s.bump root).moves = s.moves + 1 := by
  obtain ⟨t, _, heq⟩ := bump_eq root s
  rw [heq]
  rfl

/-- A step looks for a next token only where it passes text. -/
theorem Step.moves_le (h : Step root s t) (hs : s.Good root) :
    t.moves + s.here ≤ s.moves + t.here := by
  obtain ⟨hgood, _, hplace⟩ := h.still_or_past hs
  have hle := hgood.consumedTo_le
  cases h with
  | bump heof =>
    have hcons : (s.bump root).consumedTo = s.current.span.stop := by
      obtain ⟨t, _, heq⟩ := bump_eq root s
      rw [heq]
    have hlt := hs.here_lt_stop heof
    rw [bump_moves]
    omega
  | rescan hslash =>
    obtain ⟨t, ht, heq⟩ := rescanRegex_eq root s
    have hmoves : (s.rescanRegex root).moves = s.moves := by
      rw [heq, ht.eq]
      rfl
    omega
  | report kind severity message span =>
    have hmoves :
        (s.report root kind severity message span).moves = s.moves := by
      rw [(report_reported root kind severity message span s).eq]
      rfl
    omega
  | record event => exact Nat.le_refl _

/-- **A run looks for no more tokens than it passes bytes.** -/
theorem Leads.moves_le (h : s.Leads root t) :
    t.moves + s.here ≤ s.moves + t.here := by
  obtain ⟨hs, hsteps⟩ := h
  induction hsteps with
  | refl => exact Nat.le_refl _
  | tail hst step ih =>
    have hstep := step.moves_le (Leads.good ⟨hs, hst⟩)
    omega

end State

/-! ## A whole script -/

variable (options : Options) (table : OperatorTable) (source : List Char)

/-- **Parsing ends and always makes progress.** A parse goes from one good
state to another; wherever in between one of its loops is entered, each
turn but the last moves on, and the loop comes to what it would come to if
it might take any number of turns. A next token is looked for at most once
for each byte of the text, and once more. -/
theorem runScript_proceeds :
    (State.initial (.ofSource source options table)).Leads
        (.ofSource source options table) (runScript source options table).2
      ∧ (∀ n, (Grammar.levels n).LoopsProceed
        (.ofSource source options table))
      ∧ (runScript source options table).2.moves
        ≤ byteLength source + 1 := by
  obtain ⟨hleads, _⟩ := runScript_ensures options table source
  refine ⟨hleads, fun n => ?_, ?_⟩
  · exact (Grammar.levels_sound _ n).loopsProceed (Nat.lt_succ_self _)
  · have hmoves := hleads.moves_le
    have hfirst : (State.initial (.ofSource source options table)).moves
        = 1 := State.bump_moves
    have hend : (runScript source options table).2.here
        ≤ byteLength source := hleads.good.isCut_here.le
    omega

/-- Three tokens and the end of the text are looked for. -/
example : (runScript "a + b".toList .standard .standard).2.moves = 4 := by
  decide +kernel

end ScriptTree
