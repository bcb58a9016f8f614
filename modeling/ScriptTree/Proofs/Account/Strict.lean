import ScriptTree.Proofs.Account.Script

/-!
# Parses that stop at the first error

Where errors are not tolerated the first of them ends the parse. From then
on no problem is taken down, although the productions that are open go on
and find more that is wrong (`State.Halts`).

The statements of a list are read one after the other, and none is begun
once the parse has ended. So the error is in the last of them, and the
others are flawless.
-/

namespace ScriptTree

namespace State

variable {root : Context} {s t : State}

/-! ## The end of a parse -/

/-- **A state of a parse that stops at its first error.** -/
structure Halts (s : State) : Prop where
  /-- As long as it goes on there is no error. -/
  going : s.aborted = false → ∀ d ∈ s.problems, d.isError = false
  /-- What ended it is an error, and the last problem. -/
  halted : s.aborted = true → ∃ front d, s.problems = front ++ [d]
    ∧ d.isError = true ∧ ∀ e ∈ front, e.isError = false

theorem Halts.congr (h : s.Halts) (hproblems : t.problems = s.problems)
    (haborted : t.aborted = s.aborted) : t.Halts := by
  refine ⟨?_, ?_⟩
  · rw [hproblems, haborted]
    exact h.going
  · rw [hproblems, haborted]
    exact h.halted

/-- **Taking down a problem**: an error ends the parse. -/
theorem Halts.report (hstrict : root.options.tolerant = false) (h : s.Halts)
    (kind : DiagnosticKind) (severity : Severity) (message : String)
    (span : Span) : (s.report root kind severity message span).Halts := by
  unfold State.report
  split
  · exact h
  rename_i hgoing
  simp only [Bool.or_eq_true, not_or, Bool.not_eq_true] at hgoing
  have hquiet := h.going hgoing.1
  have hlist : ∀ d, (s.diagnostics.push d).toList = s.problems ++ [d] :=
    fun d => Array.toList_push
  cases severity with
  | warning =>
    refine ⟨fun _ d hd => ?_, fun haborted => nomatch haborted⟩
    rw [problems, hlist] at hd
    rcases List.mem_append.1 hd with hd | hd
    · exact hquiet d hd
    · obtain rfl := List.mem_singleton.1 hd
      rfl
  | error =>
    refine ⟨fun haborted => ?_, fun _ => ⟨s.problems, _, hlist _, rfl, hquiet⟩⟩
    simp [hstrict] at haborted

theorem Halts.reportToken (hstrict : root.options.tolerant = false)
    (h : s.Halts) (token : Token) : (s.reportToken root token).Halts := by
  unfold State.reportToken
  split
  · exact h.report hstrict ..
  · exact h

theorem Halts.foldl_passExtra (hstrict : root.options.tolerant = false)
    (h : s.Halts) (extras : List Token) :
    (extras.foldl (passExtra root) s).Halts := by
  induction extras generalizing s with
  | nil => exact h
  | cons x extras ih =>
    refine ih ?_
    unfold passExtra
    split
    · exact h.congr rfl rfl
    · dsimp only
      split
      · exact (h.reportToken hstrict x).congr rfl rfl
      · exact h.reportToken hstrict x

theorem Halts.bump (hstrict : root.options.tolerant = false)
    (h : s.Halts) : (s.bump root).Halts := by
  have hmoved : State.Halts
      { s with
        scanner := s.scanner.nextSignificant.scanner
        consumedTo := s.current.span.stop
        taken := s.current :: s.taken
        newlineBefore := false } := h.congr rfl rfl
  exact ((hmoved.foldl_passExtra hstrict _).reportToken hstrict _).congr
    rfl rfl

theorem Act.halts (hstrict : root.options.tolerant = false)
    (hact : Act root s t) (h : s.Halts) : t.Halts := by
  cases hact with
  | bump => exact h.bump hstrict
  | rescan =>
    have hmoved : State.Halts
        { s with scanner := (s.scanner.rescanRegex s.current).2 } :=
      h.congr rfl rfl
    exact (hmoved.reportToken hstrict _).congr rfl rfl
  | report => exact h.report hstrict ..
  | record | level => exact h.congr rfl rfl

/-- **Every state that is reached stops at its first error.** -/
theorem Reached.halts (hstrict : root.options.tolerant = false)
    (hs : s.Reached root) : s.Halts := by
  have hblank : (blank root.source).Halts :=
    ⟨fun _ _ hd => (nomatch hd), fun h => nomatch h⟩
  exact (hs.induction (hblank.bump hstrict)
    (fun _ _ _ hact h => hact.halts hstrict h)).2

/-! ## Room for problems -/

/-- **There is room for another problem.** -/
def HasRoom (root : Context) (s : State) : Prop :=
  s.problems.length < root.options.maxDiagnostics

theorem Adds.length_le {ds : List Diagnostic} (h : Adds ds s t) :
    s.problems.length ≤ t.problems.length := by
  obtain ⟨ds', _, hproblems⟩ := h
  rw [hproblems, List.length_append]
  exact Nat.le_add_right _ _

/-- Where there is room there was room before. -/
theorem Acts.hasRoom (h : Acts root s t) (ht : t.HasRoom root) :
    s.HasRoom root := by
  induction h with
  | refl => exact ht
  | tail _ hact ih =>
    refine ih (Nat.lt_of_le_of_lt ?_ ht)
    cases hact with
    | bump => exact (bump_adds root _).length_le
    | rescan => exact (rescanRegex_adds root _).length_le
    | report => exact (report_adds ..).length_le
    | record | level => exact Nat.le_refl _

/-- A parse that goes on and has room has found no error. -/
theorem Reached.clean (hstrict : root.options.tolerant = false)
    (hs : s.Reached root) (hgoing : s.aborted = false)
    (hroom : s.HasRoom root) : s.Clean root :=
  ⟨hgoing, hroom, (hs.halts hstrict).going hgoing⟩

/-- **What has been gathered is flawless** where nothing has gone wrong. -/
theorem Gathers.flawless {xs : List Statement}
    (h : s.Gathers root (xs.map .statement) t) (hclean : t.Clean root) :
    ∀ x ∈ xs, (Node.statement x).Flawless := by
  intro x hx
  obtain ⟨ts, _, hspent⟩ := h.spent hclean
  refine Node.flawless_of_leaves (fun l hl => hspent.isError_eq_false l ?_)
  exact List.mem_flatMap.2 ⟨_, List.mem_map_of_mem hx, hl⟩

end State

/-! ## Statement lists -/

namespace Parse

open State ScriptTree.Action

variable {root ctx : Context} {r s : State} {g : Grammar}

/-- **Statements of which the last may be flawed**, and it is not where
nothing has gone wrong. They are listed with the last of them first. -/
structure LastFlawed (root : Context) (found : List Statement)
    (s : State) : Prop where
  /-- The others are flawless. -/
  others : s.HasRoom root → ∀ x ∈ found.tail, (Node.statement x).Flawless
  /-- All are. -/
  all : s.Clean root → ∀ x ∈ found, (Node.statement x).Flawless

theorem statementsFrom_strict (hstrict : root.options.tolerant = false)
    (hg : g.Gathers root) (turns : Nat) {found : List Statement}
    (hfound : LastFlawed root found s) :
    Action.Accounts root (statementsFrom g turns found) ctx s
      (fun xs t => t.HasRoom root →
        ∀ x ∈ xs.dropLast, (Node.statement x).Flawless) := by
  have hend : ∀ {found s}, LastFlawed root found s → s.HasRoom root →
      ∀ x ∈ found.reverse.dropLast, (Node.statement x).Flawless := by
    intro found s hfound hroom x hx
    rw [List.dropLast_reverse, List.mem_reverse] at hx
    exact hfound.others hroom x hx
  -- A statement is begun only where those before it are flawless.
  induction turns generalizing s found with
  | zero => exact .pure (hend hfound)
  | succ turns ih =>
    refine .look s rfl (.look (s.atListEnd ctx) rfl ?_)
    refine .ite (fun _ => .pure (hend hfound)) (fun hgoing => ?_)
    refine .look s.here rfl (.of_reached fun _ hs => ?_)
    have haborted : s.aborted = false := by
      simp only [Bool.or_eq_true, not_or, Bool.not_eq_true] at hgoing
      exact hgoing.1
    have hbefore : ∀ {u}, Acts root s u → u.HasRoom root →
        ∀ x ∈ found, (Node.statement x).Flawless := fun hsu hroom =>
      hfound.all (hs.clean hstrict haborted (hsu.hasRoom hroom))
    refine (statement_accounts hg).attempt.bind fun a t hst hr => ?_
    cases a with
    | ok x =>
      refine ih ⟨fun hroom => hbefore hst hroom, fun hclean => ?_⟩
      have hx : s.Gathers root ([x].map .statement) t := hr.1 x rfl
      exact List.forall_mem_cons.2 ⟨hx.flawless hclean x List.mem_cons_self,
        hfound.all (hst.clean hclean)⟩
    | error error =>
      refine (abandon_accounts _ (fun _ => hr.2 error rfl)).bind
        fun a u htu hclean => ?_
      have hsu := hst.trans htu
      cases a with
      | some x =>
        exact ih ⟨fun hroom => hbefore hsu hroom, fun h => absurd h hclean⟩
      | none =>
        refine ih ⟨fun hroom x hx => ?_, fun h => absurd h hclean⟩
        exact hbefore hsu hroom x (List.mem_of_mem_tail hx)

/-- **The statements of a script** but the last are flawless. -/
theorem script_strict (hstrict : root.options.tolerant = false)
    (hg : g.Gathers root) :
    Action.Accounts root (script g) root s
      (fun xs t => t.HasRoom root →
        ∀ x ∈ xs.dropLast, (Node.statement x).Flawless) := by
  refine .look s.current rfl ?_
  have hlist : Action.Accounts root (statementList g .eof) root s
      (fun xs t => t.HasRoom root →
        ∀ x ∈ xs.dropLast, (Node.statement x).Flawless) := fun _ hs =>
    statementsFrom_strict hstrict hg root.turns
      ⟨fun _ _ h => (nomatch h), fun _ _ h => (nomatch h)⟩
      ((Context.Within.refl root).inList .eof) hs
  refine hlist.bind fun xs t _ hxs => ?_
  dsimp only
  refine .ite (fun _ => ?_) (fun _ => .pure hxs)
  refine reportEmpty_accounts.bind fun _ u htu _ => .pure (fun hroom => ?_)
  exact hxs (Acts.hasRoom htu hroom)

end Parse

/-- **A parse that does not tolerate errors stops at the first one**, if
there is room for its problems. Without an error there is no error node in
the tree. With one, it is the only one and the last problem, and only the
last statement may have error nodes in it. -/
theorem parseWith_stops (options : Options) (table : OperatorTable)
    (source : List Char) (hstrict : options.tolerant = false)
    (hroom : (parseWith options table source).diagnostics.length
      < options.maxDiagnostics) :
    let o := parseWith options table source
    ((∀ d ∈ o.diagnostics, d.isError = false)
        ∧ (Node.program o.program).Flawless)
      ∨ ∃ front d, o.diagnostics = front ++ [d] ∧ d.isError = true
        ∧ (∀ e ∈ front, e.isError = false)
        ∧ ∀ x ∈ o.program.body.dropLast, (Node.statement x).Flawless := by
  intro o
  have hreached := runScript_reached options table source
  have hhalts := hreached.halts hstrict
  cases haborted : (runScript source options table).2.aborted with
  | false =>
    refine .inl ⟨hhalts.going haborted, ?_⟩
    have hbody := (runScript_gathers options table source).flawless
      (hreached.clean hstrict haborted hroom)
    refine Node.flawless_iff.2 ⟨rfl, fun c hc => ?_⟩
    obtain ⟨x, hx, rfl⟩ := List.mem_map.1 hc
    exact hbody x hx
  | true =>
    obtain ⟨front, d, hproblems, herror, hfront⟩ := hhalts.halted haborted
    refine .inr ⟨front, d, hproblems, herror, hfront, ?_⟩
    exact (Parse.script_strict hstrict (Grammar.levels_gathers _ _)
      (.refl _) .refl).2 hroom

/-- An error in a block, behind which there is another one. -/
theorem parseWith_stops_inside :
    let options : Options := { Options.standard with tolerant := false }
    let o := parseWith options .standard "a\nif (b) { c = ; d = ) }\ne".toList
    options.tolerant = false
      ∧ o.diagnostics.length < options.maxDiagnostics
      ∧ (((∀ d ∈ o.diagnostics, d.isError = false)
          ∧ (Node.program o.program).Flawless)
        ∨ ∃ front d, o.diagnostics = front ++ [d] ∧ d.isError = true
          ∧ (∀ e ∈ front, e.isError = false)
          ∧ ∀ x ∈ o.program.body.dropLast, (Node.statement x).Flawless) := by
  intro options o
  have hroom : o.diagnostics.length < options.maxDiagnostics := by
    decide +kernel
  exact ⟨rfl, hroom, parseWith_stops options .standard _ rfl hroom⟩

end ScriptTree
