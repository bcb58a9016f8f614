import Mathlib.Data.List.Count
import ScriptTree.Proofs.Abreast.Script
import ScriptTree.Proofs.Account.Strict

/-!
# What tolerating errors changes

A parse that tolerates errors and one that does not go abreast until the
first error. Until then the two read the same, and when they part the
error is taken down, if there is room for it. So where no error was taken
down, although there was room for one, it does not matter whether errors
are tolerated (`parseWith_eq_of_quiet`). Nor has such a parse made up for
anything in its tree: a tree with an error in it comes with a problem that
says so (`hasErrors_of_isError`).

There is always room for an error if the problems kept are fewer than
those that may be kept. Warnings take up room as well: a script may be so
full of them that its errors are not heard of
(`exists_unreported_error`).
-/

namespace ScriptTree

/-! ## Two parses -/

/-- **The parses that differ in whether they tolerate errors.** Either of
them shows that it may be apart from the other by an error it has taken
down, or by having no room for one. -/
def toleranceFamily (o : Options) : Family Bool where
  options tolerant := { o with tolerant := tolerant }
  strict := True
  Kept ds cs := ds true = ds false ∧ cs true = cs false
  Apart _ ds :=
    (∃ d ∈ ds, d.isError = true) ∨ o.maxDiagnostics ≤ ds.length
  Parts _ error := error.isLexical = false
  kept_nil := ⟨rfl, rfl⟩
  kept_added h d := .inl ⟨congrArg (o.added · d) h.1, h.2⟩
  kept_trailing h d _ _ := .inl
    ⟨congrArg (fun ds => if o.allowTrailingStatement then ds
      else o.added ds d) h.1, h.2⟩
  kept_comment h c :=
    ⟨h.1, congrArg (fun cs => if o.collectComments then cs ++ [c]
      else cs) h.2⟩
  apart_of_isError _ _ ds d hd :=
    (o.mem_added ds d).imp_left (fun h => ⟨d, h, hd⟩)
  isLexical_of_parts h := h
  apart_of_parts _ ds d hd _ :=
    (o.mem_added ds d).imp_left (fun h => ⟨d, h, hd⟩)
  apart_mono h hapart := hapart.imp
    (fun ⟨d, hd, herror⟩ => ⟨d, h.subset hd, herror⟩)
    (fun hfull => Nat.le_trans hfull h.length_le)
  parts_of_strict _ _ _ h := h
  tolerant_eq h := absurd trivial h

variable (o : Options) (table : OperatorTable) (source : List Char)

/-- **A parse and its other** go abreast, or are apart. -/
theorem toleranceFamily_done :
    (toleranceFamily o).Done fun tolerant =>
      runScript source { o with tolerant := tolerant } table :=
  runScript_abreast (Grammar.levels_abreast (fun _ => rfl)) source table

namespace Outcome

/-- **An answer with nothing to show**: there is no error among the
problems, although there was room for another one. -/
structure Quiet (o : Options) (r : Outcome) : Prop where
  /-- There is no error. -/
  hasErrors_eq : r.hasErrors = false
  /-- There was room for one. -/
  length_lt : r.diagnostics.length < o.maxDiagnostics

variable {o}

theorem hasErrors_iff {r : Outcome} :
    r.hasErrors = true ↔ ∃ d ∈ r.diagnostics, d.isError = true :=
  List.any_eq_true

/-- A parse that may be apart from the other has something to show. -/
theorem Quiet.not_apart {r : Outcome} (h : r.Quiet o) {tolerant : Bool} :
    ¬(toleranceFamily o).Apart tolerant r.diagnostics := by
  rintro (herror | hfull)
  · exact Bool.false_ne_true
      (h.hasErrors_eq.symm.trans (hasErrors_iff.2 herror))
  · exact absurd h.length_lt (Nat.not_lt.2 hfull)

end Outcome

/-! ## Where there are no errors -/

/-- If one of the two parses is quiet the other one answers the same. -/
theorem parseWith_tolerant_eq (tolerant tolerant' : Bool)
    (h : (parseWith { o with tolerant := tolerant } table source).Quiet o) :
    parseWith { o with tolerant := tolerant } table source
      = parseWith { o with tolerant := tolerant' } table source := by
  cases toleranceFamily_done o table source with
  | @answer body u t run together =>
    have hproblems (b : Bool) : (t b).problems = (t true).problems := by
      cases b
      · exact together.kept.1.symm
      · rfl
    have hcomments (b : Bool) :
        (t b).comments.toList = (t true).comments.toList := by
      cases b
      · exact together.kept.2.symm
      · rfl
    have hrun (b : Bool) :
        parseWith { o with tolerant := b } table source
          = ⟨⟨body, (t true).comments.toList, ⟨0, byteLength source⟩⟩,
            (t true).problems⟩ := by
      rw [← hproblems b, ← hcomments b]
      unfold parseWith
      rw [run b]
    rw [hrun, hrun]
  | apart leaves => exact absurd (leaves tolerant) h.not_apart

/-- **Tolerating errors only matters where there are some**: if one of two
parses that differ in nothing else takes down no error, although there is
room for one, both answer the same. -/
theorem parseWith_eq_of_quiet {o₁ o₂ : Options}
    (h : o₂ = { o₁ with tolerant := o₂.tolerant })
    (hquiet : (parseWith o₁ table source).Quiet o₁
      ∨ (parseWith o₂ table source).Quiet o₂) :
    parseWith o₁ table source = parseWith o₂ table source := by
  rw [h] at hquiet ⊢
  rcases hquiet with hquiet | hquiet
  · exact parseWith_tolerant_eq o₁ table source o₁.tolerant o₂.tolerant
      hquiet
  · exact (parseWith_tolerant_eq o₁ table source o₂.tolerant o₁.tolerant
      ⟨hquiet.hasErrors_eq, hquiet.length_lt⟩).symm

/-- A script with a warning, but without an error. -/
theorem parseWith_eq_of_quiet_warning :
    (parseWith .standard .standard "\x7blet a\x7d".toList).Quiet .standard
      ∧ parseWith .standard .standard "\x7blet a\x7d".toList
        = parseWith { Options.standard with tolerant := false } .standard
          "\x7blet a\x7d".toList := by
  have hquiet :
      (parseWith .standard .standard "\x7blet a\x7d".toList).Quiet
        .standard := ⟨by decide +kernel, by decide +kernel⟩
  exact ⟨hquiet, parseWith_eq_of_quiet .standard _ rfl (.inl hquiet)⟩

/-! ## Where there are errors -/

/-- **A parse with nothing to show has not ended early**, whether it
tolerates errors or not. -/
theorem Outcome.Quiet.runScript_clean
    (h : (parseWith o table source).Quiet o) :
    (runScript source o table).2.Clean (.ofSource source o table) := by
  have hreached := runScript_reached o table source
  have hquiet : ∀ d ∈ (runScript source o table).2.problems,
      d.isError = false := fun d hd =>
    Bool.eq_false_iff.2 fun herror => Bool.false_ne_true
      (h.hasErrors_eq.symm.trans (hasErrors_iff.2 ⟨d, hd, herror⟩))
  refine ⟨?_, h.length_lt, hquiet⟩
  cases htolerant : o.tolerant with
  | true => exact hreached.good.aborted_eq htolerant
  | false =>
    -- An error that ends a parse is among its problems.
    by_contra haborted
    obtain ⟨front, d, hproblems, herror, -⟩ :=
      (hreached.halts htolerant).halted (Bool.not_eq_false _ ▸ haborted)
    have hd := hquiet d
      (hproblems ▸ List.mem_append_right _ (List.mem_singleton_self d))
    exact Bool.false_ne_true (hd.symm.trans herror)

/-- **A tree with an error in it comes with an error to show for it**,
unless there was no room for one. -/
theorem isError_or_full
    (h : ∃ n ∈ (Node.program (parseWith o table source).program).all,
      n.isError = true) :
    (∃ d ∈ (parseWith o table source).diagnostics, d.isError = true)
      ∨ o.maxDiagnostics ≤ (parseWith o table source).diagnostics.length := by
  by_contra hnone
  obtain ⟨hquiet, hroom⟩ := not_or.1 hnone
  have hclean := Outcome.Quiet.runScript_clean o table source
    ⟨Bool.eq_false_iff.2 (mt Outcome.hasErrors_iff.1 hquiet),
      Nat.lt_of_not_le hroom⟩
  have hbody := (runScript_gathers o table source).flawless hclean
  have hflawless :
      (Node.program (parseWith o table source).program).Flawless := by
    refine Node.flawless_iff.2 ⟨rfl, fun c hc => ?_⟩
    obtain ⟨x, hx, rfl⟩ := List.mem_map.1 hc
    exact hbody x hx
  obtain ⟨n, hn, herror⟩ := h
  exact Bool.false_ne_true ((hflawless n hn).symm.trans herror)

/-- **An error in the tree is not hidden from the strict view**, as long
as warnings have left room for it. -/
theorem hasErrors_of_isError
    (hroom : (parseWith o table source).diagnostics.countP
      (fun d => d.severity = .warning) < o.maxDiagnostics)
    (h : ∃ n ∈ (Node.program (parseWith o table source).program).all,
      n.isError = true) :
    (parseWith o table source).hasErrors = true
      ∧ (parseWith o table source).strict
        = .error ((parseWith o table source).diagnostics.filter
          Diagnostic.isError) := by
  have herrors : (parseWith o table source).hasErrors = true := by
    refine Outcome.hasErrors_iff.2
      ((isError_or_full o table source h).elim id (fun hfull => ?_))
    obtain ⟨d, hd, hseverity⟩ := List.countP_lt_length_iff.1
      (Nat.lt_of_lt_of_le hroom hfull)
    refine ⟨d, hd, decide_eq_true ?_⟩
    cases h : d.severity with
    | error => rfl
    | warning => exact absurd h (of_decide_eq_false hseverity)
  exact ⟨herrors, if_pos herrors⟩

/-- An error among the statements of a script is an error in its tree. -/
theorem Program.exists_isError {p : Program}
    (h : p.body.any (fun
      | .error _ => true
      | _ => false) = true) :
    ∃ n ∈ (Node.program p).all, n.isError = true := by
  obtain ⟨s, hs, herror⟩ := List.any_eq_true.1 h
  cases s with
  | error e =>
    refine ⟨.error e, Node.mem_all_iff.2 (.inr
      ⟨.statement (.error e), List.mem_map_of_mem hs, ?_⟩), rfl⟩
    exact Node.mem_all_iff.2
      (.inr ⟨.error e, List.mem_singleton_self _, Node.mem_all_self _⟩)
  | _ => exact nomatch herror

/-- An error, with room for one problem. -/
theorem hasErrors_of_isError_one :
    (parseWith { Options.standard with maxDiagnostics := 1 } .standard
        ")".toList).diagnostics.countP (fun d => d.severity = .warning) < 1
      ∧ (parseWith { Options.standard with maxDiagnostics := 1 } .standard
        ")".toList).hasErrors = true := by
  have hroom : (parseWith { Options.standard with maxDiagnostics := 1 }
      .standard ")".toList).diagnostics.countP
        (fun d => d.severity = .warning) < 1 := by decide +kernel
  refine ⟨hroom, (hasErrors_of_isError
    { Options.standard with maxDiagnostics := 1 } .standard ")".toList
    hroom ?_).1⟩
  exact Program.exists_isError (by decide +kernel)

/-- **A warning may take up the room of an error.** Of the two problems of
this script the first is a warning, and where only one is kept the error
in the tree is not heard of. -/
theorem exists_unreported_error :
    ¬∀ (o : Options) (table : OperatorTable) (source : List Char),
      1 ≤ o.maxDiagnostics →
      (∃ n ∈ (Node.program (parseWith o table source).program).all,
        n.isError = true) →
      (parseWith o table source).hasErrors = true
        ∧ ∃ errors, (parseWith o table source).strict = .error errors := by
  intro h
  have h := h { Options.standard with maxDiagnostics := 1 } .standard
    "\x7blet a\x7d\n)".toList (Nat.le_refl 1) ?_
  · exact absurd h.1 (by decide +kernel)
  · exact Program.exists_isError (by decide +kernel)

end ScriptTree
