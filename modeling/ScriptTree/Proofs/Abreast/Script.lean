import ScriptTree.Proofs.Abreast.Recovery
import ScriptTree.Proofs.Plan.Grammar

/-!
# Scripts abreast

Each parse of a family may have a grammar of its own, as when they differ
in how deep constructs may nest. Grammars go abreast if what they are asked
for does, and whatever has a plan goes abreast over such grammars
(`Parse.Plan.abreast`). So grammars of one more level go abreast if those
of one less do, and so do the parses of a whole script, which begin with
nothing taken down (`runScript_abreast`): either all parses come to the
same tree, and what they have taken down is related as the family says, or
each of them has something to show for being apart.
-/

namespace ScriptTree

variable {ι : Type} {F : Family ι} {K : Prop} {α : Type} {n : Nat}

/-- **Grammars that go abreast**, whatever they are asked for. -/
def Grammar.GoAbreast (F : Family ι) (g : ι → Grammar) : Prop :=
  ∀ ⦃α : Type⦄ (entry : Entry α),
    Parse.Abreast F True fun i => (g i).ask entry

/-- **Whatever has a plan goes abreast** over grammars that do. -/
theorem Parse.Plan.abreast {p : Grammar → Parse α} (plan : Plan K n p)
    {g : ι → Grammar} (hg : Grammar.GoAbreast F g) :
    Abreast F K fun i => p (g i) := by
  induction plan with
  | look x still blind => exact .look still blind
  | advance => exact .advance
  | rescan _ ih => exact .rescan ih
  | report => exact .report ..
  | trailing => exact .trailing
  | reportError => exact .reportError ..
  | record => exact .record _
  | throw error _ fresh => exact .throw fresh
  | mend point start error fresh => exact mend_abreast point start fresh
  | abandon start error => exact abandon_abreast start error
  | enter entry =>
    exact ⟨(hg entry).grows, fun _ => (hg entry).ends fun _ => trivial⟩
  | bind _ _ ihfirst ihbehind => exact ihfirst.bind ihbehind
  | meet _ ih => exact .meet ih
  | take _ ih => exact .take ih
  | view blind _ ih => exact .view (fun i s => blind s (g i)) ih
  | consult blind _ ih =>
    exact .consult (fun i c options => blind c options (g i)) ih
  | tolerant point _ ih => exact tolerant_abreast point ih
  | orAbandon start _ ih => exact orAbandon_abreast start ih
  | inBrackets _ ih => exact .withReader (fun _ _ => rfl) ih
  | inList _ _ ih => exact .withReader (fun _ _ => rfl) ih
  | withoutIn _ ih => exact .withReader (fun _ _ => rfl) ih
  | same _ eq _ ih =>
    subst eq
    exact ih

/-! ## Levels -/

namespace Grammar

/-- **The grammars of no levels go abreast** if the limit is the same for
all parses. -/
theorem exhausted_abreast {limit : Nat}
    (hlimit : ∀ i, (F.options i).maxNestingDepth = limit) :
    GoAbreast F fun _ => exhausted := by
  intro α entry
  simp only [ask_exhausted]
  exact .tooDeep hlimit

/-- **Grammars of one more level go abreast** if those of one less do. -/
theorem levels_succ_abreast {n : ι → Nat}
    (hg : GoAbreast F fun i => levels (n i)) :
    GoAbreast F fun i => levels (n i + 1) := by
  intro α entry
  simp only [ask_levels_succ]
  exact .guarded (entry.plan.abreast hg)

/-- **Grammars of the same number of levels go abreast** if the limit is
the same for all parses, be it that number or another. -/
theorem levels_abreast_of {limit : Nat}
    (hlimit : ∀ i, (F.options i).maxNestingDepth = limit) (n : Nat) :
    GoAbreast F fun _ => levels n := by
  induction n with
  | zero => exact exhausted_abreast hlimit
  | succ n ih => exact levels_succ_abreast ih

/-- **The grammars of parses with the same limit go abreast.** -/
theorem levels_abreast {limit : Nat}
    (hlimit : ∀ i, (F.options i).maxNestingDepth = limit) :
    GoAbreast F fun i => levels (F.options i).maxNestingDepth := by
  simp only [hlimit]
  exact levels_abreast_of hlimit limit

end Grammar

/-! ## Scripts -/

namespace Family

/-- **How parses end** that never fail. -/
inductive Done (F : Family ι) (r : ι → α × State) : Prop where
  /-- All parses have the same answer. -/
  | answer {a : α} {u : State} {t : ι → State} (run : ∀ i, r i = (a, t i))
      (together : F.Together u t)
  /-- The parses are apart. -/
  | apart (leaves : ∀ i, F.Apart i (r i).2.problems)

/-- **All parses begin together**, or what is wrong with the first token
has put them apart. -/
theorem keeps_initial (F : Family ι) (c : Context) :
    ∃ u, F.Keeps u fun i => State.initial (c.withOptions (F.options i)) := by
  have hblank : F.Together (State.blank c.source)
      fun _ => State.blank c.source :=
    ⟨fun _ => rfl, rfl, fun _ => rfl, F.kept_nil⟩
  exact hblank.bump c

end Family

/-- **A script is parsed abreast.** -/
theorem runScript_abreast
    (hg : Grammar.GoAbreast F
      fun i => .levels (F.options i).maxNestingDepth)
    (source : List Char) (table : OperatorTable) :
    F.Done fun i => runScript source (F.options i) table := by
  let c := Context.ofSource source .standard table
  have hscript := (Parse.Plan.script (K := True)).abreast hg
  obtain ⟨u, h | h⟩ := F.keeps_initial c
  · cases hscript.ends (fun _ => trivial) c h with
    | @answer body v t run together =>
      refine .answer (a := body) (fun i => ?_) together
      have hrun := Prod.mk.inj (run i)
      exact Prod.ext (Except.ok.inj hrun.1) hrun.2
    | failure run => exact .apart fun i => nomatch (Prod.mk.inj (run i)).1
    | apart leaves =>
      exact .apart fun i => (leaves i).elim id fun ⟨_, h, _⟩ => nomatch h
  · exact .apart fun i =>
      F.apart_mono (hscript.grows i c _).isPrefix (h i)

/-- **Parses that come to the same tree and have taken down the same**
answer the same. -/
theorem parseWith_eq_of_run {source : List Char} {table : OperatorTable}
    {o o' : Options} {body : List Statement} {s s' : State}
    (h : runScript source o table = (body, s))
    (h' : runScript source o' table = (body, s'))
    (hproblems : s.problems = s'.problems)
    (hcomments : s.comments.toList = s'.comments.toList) :
    parseWith o table source = parseWith o' table source := by
  unfold parseWith
  rw [h, h']
  exact congrArg₂ (fun cs ds =>
    Outcome.mk ⟨body, cs, ⟨0, byteLength source⟩⟩ ds) hcomments hproblems

end ScriptTree
