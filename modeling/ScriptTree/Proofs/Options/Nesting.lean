import ScriptTree.Proofs.Options.Tolerance

/-!
# How deep constructs may nest

A parse that may go deeper than another one reads the same until the other
one reaches its limit. There the other one gives up, and no tolerant point
on the way to the statement list mends that: the error is taken down as
what it is, if there is room for it. So a parse that ran into no limit,
although it had room to say so, is the parse for all higher limits as well
(`parseWith_eq_of_shallow`).

The two parses have grammars of different numbers of levels. These go
abreast because the grammar of no levels refuses whatever the other
grammar may still read (`Grammar.exhausted_abreast_levels`), and because
with one more level each they go abreast if they did before.
-/

namespace ScriptTree

/-- A problem that says constructs nest deeper than a limit. -/
def Diagnostic.ExceedsNesting (limit : Nat) (d : Diagnostic) : Prop :=
  d.message = (ParseError.tooDeep limit d.span).message

instance (limit : Nat) (d : Diagnostic) :
    Decidable (d.ExceedsNesting limit) := inferInstanceAs (Decidable (_ = _))

/-! ## Two parses -/

/-- **The parses that differ in how deep constructs may nest.** The one
with the lower limit shows that it may be apart from the other by having
reached its limit, or by having no room to say so. The other one has
nothing to show. -/
def nestingFamily {o : Options} (htolerant : o.tolerant = true)
    (limit : Nat) : Family Bool where
  options deeper :=
    { o with maxNestingDepth := if deeper then limit else o.maxNestingDepth }
  strict := False
  Kept ds cs := ds true = ds false ∧ cs true = cs false
  Apart deeper ds :=
    deeper = true ∨ (∃ d ∈ ds, d.ExceedsNesting o.maxNestingDepth)
      ∨ o.maxDiagnostics ≤ ds.length
  Parts deeper error :=
    deeper = false ∧ ∃ span, error = .tooDeep o.maxNestingDepth span
  kept_nil := (toleranceFamily o).kept_nil
  kept_added h d := .inl ⟨congrArg (o.added · d) h.1, h.2⟩
  kept_trailing h d _ _ := .inl
    ⟨congrArg (fun ds => if o.allowTrailingStatement then ds
      else o.added ds d) h.1, h.2⟩
  kept_comment h c :=
    ⟨h.1, congrArg (fun cs => if o.collectComments then cs ++ [c]
      else cs) h.2⟩
  apart_of_isError h := h.elim
  isLexical_of_parts := by
    rintro _ _ ⟨_, _, rfl⟩
    rfl
  apart_of_parts := by
    rintro _ _ ⟨_, _, rfl⟩ ds d _ hmessage
    exact .inr ((o.mem_added ds d).imp_left (fun h => ⟨d, h, hmessage⟩))
  apart_mono h hapart := hapart.imp_right (Or.imp
    (Exists.imp (fun _ => And.imp_left (h.subset ·)))
    (fun hfull => Nat.le_trans hfull h.length_le))
  parts_of_strict h := h.elim
  tolerant_eq _ _ := htolerant

section Levels

variable {o : Options} {htolerant : o.tolerant = true} {limit : Nat}

/-- **The parse at its limit leaves**, whatever the other one goes on to
read. -/
theorem Parse.refused_abreast {α : Type} {K : Prop} {p : Bool → Parse α}
    (hrefused : p false = tooDeep)
    (hp : Abreast (toleranceFamily { o with maxNestingDepth := limit }) True
      fun _ => p true) :
    Abreast (nestingFamily htolerant limit) K p where
  grows deeper c s := by
    cases deeper with
    | false => rw [hrefused]; exact .refl _ s
    | true => exact hp.grows o.tolerant c s
  ends _ c u s hs := by
    refine .apart (fun deeper => ?_)
    cases deeper with
    | false =>
      rw [hrefused]
      exact .inr ⟨_, rfl, ⟨rfl, _, rfl⟩, hs.aborted_eq false⟩
    | true => exact .inl (.inl rfl)

/-- **The grammar of no levels goes abreast with any other.** -/
theorem Grammar.exhausted_abreast_levels (more : Nat) :
    GoAbreast (nestingFamily htolerant limit)
      fun deeper => levels (if deeper then more else 0) := by
  intro α entry
  have hmore : GoAbreast
      (toleranceFamily { o with maxNestingDepth := limit })
      fun _ => levels more := levels_abreast_of (fun _ => rfl) more
  exact Parse.refused_abreast (ask_exhausted entry) (hmore entry)

variable (htolerant limit) in
/-- **A grammar goes abreast with one of more levels.** -/
theorem Grammar.levels_abreast_levels (n more : Nat) :
    GoAbreast (nestingFamily htolerant limit)
      fun deeper => levels (if deeper then n + more else n) := by
  induction n with
  | zero =>
    rw [Nat.zero_add]
    exact exhausted_abreast_levels more
  | succ n ih =>
    have hsucc (deeper : Bool) :
        (if deeper then n + 1 + more else n + 1)
          = (if deeper then n + more else n) + 1 := by
      split <;> omega
    simp only [hsucc]
    exact levels_succ_abreast ih

end Levels

/-! ## Where no limit is reached -/

variable (table : OperatorTable) (source : List Char)

/-- **The nesting limit only matters where it is reached**: if a parse
that tolerates errors does not run into its limit, although it had room to
say so, then it answers the same for any higher limit. -/
theorem parseWith_eq_of_shallow {o : Options} (htolerant : o.tolerant = true)
    {limit : Nat} (hle : o.maxNestingDepth ≤ limit)
    (hroom : (parseWith o table source).diagnostics.length
      < o.maxDiagnostics)
    (hshallow : ∀ d ∈ (parseWith o table source).diagnostics,
      ¬d.ExceedsNesting o.maxNestingDepth) :
    parseWith { o with maxNestingDepth := limit } table source
      = parseWith o table source := by
  have hlevels := Grammar.levels_abreast_levels htolerant limit
    o.maxNestingDepth (limit - o.maxNestingDepth)
  rw [Nat.add_sub_cancel' hle] at hlevels
  cases runScript_abreast hlevels source table with
  | answer run together =>
    exact parseWith_eq_of_run (run true) (run false) together.kept.1
      together.kept.2
  | apart leaves =>
    obtain hdeeper | ⟨d, hd, hexceeds⟩ | hfull := leaves false
    · exact nomatch hdeeper
    · exact absurd hexceeds (hshallow d hd)
    · exact absurd hroom (Nat.not_lt.2 hfull)

/-- A script with errors of other kinds, for which five levels are
enough. -/
theorem parseWith_eq_of_shallow_five :
    parseWith .standard .standard "f(a b); )".toList
      = parseWith { Options.standard with maxNestingDepth := 5 } .standard
        "f(a b); )".toList :=
  parseWith_eq_of_shallow .standard _
    (o := { Options.standard with maxNestingDepth := 5 }) rfl (by decide)
    (by decide +kernel) (by decide +kernel)

end ScriptTree
