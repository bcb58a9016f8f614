import ScriptTree.Proofs.Account.Module
import ScriptTree.Proofs.Derive.Declaration

/-!
# How imports and exports are derived

An export that has to be ended is ended by what it names, so it is known
from there where the statement ends.
-/

namespace ScriptTree.Parse

open ScriptTree.Action State

variable {root ctx : Context} {R : Replay root} {K : Set Mark} {r s : State}
  {F : List Node}

/-! ## Lists of names -/

section Specifiers

variable {α : Type} {parts : α → List Node} {item : Parse α}
  (hitem : ∀ s, Derives R ∅ item ctx s
    (fun K x t => R.Yields ctx K s (parts x) t))

include hitem

theorem specifiersFrom_derives (turns : Nat) {found : List α}
    (hfound : R.Yields ctx K r (found.reverse.flatMap parts) s) :
    Derives R K (specifiersFrom item turns found) ctx s
      (fun K xs t => R.Yields ctx K r (xs.flatMap parts) t) := by
  induction turns generalizing s K found with
  | zero => exact .pure hfound
  | succ turns ih =>
    refine .ask (·.isPunctuator .rBrace) (fun _ _ => rfl) (fun _ => rfl)
      (.ite (fun _ => .pure hfound) (fun _ => ?_))
    refine ((hitem s).after hfound).bind fun K x t _ hx => ?_
    refine (eat_yields .comma hx.concat).bind fun K _ u _ hF => ?_
    exact .ite (fun _ => ih hF) (fun _ => .pure hF)

theorem specifiers_derives :
    Derives R ∅ (specifiers item) ctx s
      (fun K xs t => R.Yields ctx K s (xs.flatMap parts) t) :=
  .askContext rfl (specifiersFrom_derives hitem _ (.refl _))

omit hitem in
/-- A list of names in its braces. -/
theorem braced_derives {p : Parse (List α)}
    (hp : ∀ {s}, Derives R ∅ p ctx s
      (fun K xs t => R.Yields ctx.inBrackets K s (xs.flatMap parts) t)) :
    Derives R ∅ (do
      discard (expectPunctuator .lBrace)
      let names ← p
      discard (expectPunctuator .rBrace)
      return names) ctx s
      (fun K xs t => R.Yields ctx K s (xs.flatMap parts) t) := by
  refine .skip (expectPunctuator_takes .lBrace) (.refl ctx)
    fun hF => ?_
  refine (hp.behind hF).bind fun K names t _ hF => ?_
  exact .skip (expectPunctuator_takes .rBrace) hF fun hF => .pure hF

end Specifiers

/-- **A second name** behind the first. -/
theorem alias?_derives {name : Parse Identifier}
    (hname : ∀ s, Derives R ∅ name ctx s
      (fun K id t => R.Yields ctx K s [.identifier id] t)) :
    Derives R ∅ (alias? name) ctx s
      (fun K id? t => R.Yields ctx K s (id?.toList.map .identifier) t) := by
  refine .ask (·.isWord "as") (fun _ _ => rfl) (fun _ => rfl)
    (.ite (fun h => ?_) (fun _ => .pure (.refl _)))
  refine .pass (.refl ctx) (isEof_of_isWord h) fun hF => ?_
  exact ((hname _).after hF).bind fun K id t _ hF => .pure hF

theorem importSpecifier_derives :
    Derives R ∅ importSpecifier ctx s
      (fun K x t => R.Yields ctx K s x.parts t) := by
  refine propertyName_derives.bind
    fun K imported t _ hF => ?_
  exact ((alias?_derives (fun _ => identifier_derives)).after hF).bind
    fun K id? u _ hF => .span (.pure hF)

theorem exportSpecifier_derives :
    Derives R ∅ exportSpecifier ctx s
      (fun K x t => R.Yields ctx K s x.parts t) := by
  refine identifier_derives.bind
    fun K localName t _ hF => ?_
  exact ((alias?_derives (fun _ => propertyName_derives)).after hF).bind
    fun K id? u _ hF => .span (.pure hF)

theorem fromClause_derives :
    Derives R ∅ fromClause ctx s
      (fun K l t => R.Yields ctx K s [.literal l] t) :=
  .skip (expectWord_takes "from") (.refl ctx)
    fun hF => moduleName_derives.after hF

/-! ## Imports -/

theorem moreImports_yields (default? : Option Identifier)
    (hF : R.Yields ctx K r F s) :
    Derives R K (liftM (moreImports default?)) ctx s
      (fun K _ t => R.Yields ctx K r F t) := by
  unfold moreImports
  rw [lift_ite]
  exact .ite (fun _ => .pure hF) (fun _ => eat_yields .comma hF)

variable {g : Grammar} (hg : g.Derives R)

include hg

/-- **The names behind the one for a module's default.** -/
theorem importRest_derives {default? : Option Identifier} (start : Nat)
    (hF : R.Yields ctx K r (default?.toList.map .identifier) s) :
    Derives R K (importRest g default? start) ctx s
      (fun K c t => R.Yields ctx K r c.parts t) := by
  refine (eat_yields .star hF).bind fun K _ t _ hF => ?_
  refine .ite (fun _ => ?_) (fun _ => ?_)
  · refine .skip (expectWord_takes "as") hF fun hF => ?_
    refine (identifier_derives.after hF).bind
      fun K name u _ hF => .span (.pure ?_)
    unfold ImportClause.parts
    rwa [Option.getD_none, List.flatMap_nil, List.append_nil]
  refine .ask (·.isPunctuator .lBrace) (fun _ _ => rfl) (fun _ => rfl)
    (.ite (fun _ => ?_) (fun _ => unexpected_derives _))
  refine ((braced_derives hg.importSpecifiers).after hF).bind
    fun K names u _ hF => .span (.pure ?_)
  unfold ImportClause.parts
  rwa [Option.toList_none, List.map_nil, List.append_nil]

theorem importClause_derives :
    Derives R ∅ (importClause g) ctx s
      (fun K c t => R.Yields ctx K s c.parts t) := by
  refine .here ?_
  refine optionalIdentifier_derives.bind
    fun K default? t _ hF => ?_
  refine (moreImports_yields default? hF).bind fun K _ u _ hF => ?_
  refine .ite (fun _ => importRest_derives hg _ hF)
    (fun _ => .span (.pure ?_))
  unfold ImportClause.parts
  rwa [Option.toList_none, List.map_nil, List.append_nil, Option.getD_none,
    List.flatMap_nil, List.append_nil]

theorem importClause?_derives :
    Derives R ∅ (importClause? g) ctx s (fun K c? t =>
      R.Yields ctx K s ((c?.map ImportClause.parts).getD []) t) := by
  refine .ask (fun t => decide (t.kind = .string)) (fun _ _ => rfl)
    (fun _ => rfl) (.ite (fun _ => .pure (.refl _)) (fun _ => ?_))
  refine (importClause_derives hg).bind fun K clause t _ hF => ?_
  exact .skip (expectWord_takes "from") hF fun hF => .pure hF

theorem importStatement_derives (hmatter : ctx.newlinesMatter = true)
    (heof : s.current.isEof = false) :
    Derives R ∅ (importStatement g) ctx s
      (fun K x t => R.Yields ctx K s [.statement x] t) := by
  refine .opening heof (fun _ => rfl) fun hF => ?_
  refine ((importClause?_derives hg).after hF).bind
    fun K clause? t _ hF => ?_
  refine (moduleName_derives.after hF).bind fun K source u _ hF => ?_
  exact (terminator_derives false hmatter hF).bind
    fun K _ v _ ⟨hF, hends⟩ => .span (.pure (.statement hF rfl rfl
      (Node.freeIn_of_nil rfl) (fun hfits => .of_some rfl (hends hfits) rfl)))

/-! ## Exports -/

omit hg in
/-- **The end of an export** that has to be ended. -/
theorem exportEnd_derives {e : Export}
    (hmatter : ctx.newlinesMatter = true) (hF : R.Yields ctx K r e.parts s) :
    Derives R K (do
      liftM (terminator false)
      pure e) ctx s
      (fun K e t => R.Yields ctx K r e.parts t ∧ (R.Fits t →
        e.isTerminated = true → t.EndsStatement ctx.listEnd false)) :=
  (terminator_derives false hmatter hF).bind
    fun _ _ _ _ ⟨hF, hends⟩ => .pure ⟨hF, fun hfits _ => hends hfits⟩

omit hg in
theorem exportAll_derives (hmatter : ctx.newlinesMatter = true)
    (heof : s.current.isEof = false) :
    Derives R ∅ exportAll ctx s
      (fun K e t => R.Yields ctx K s e.parts t ∧ (R.Fits t →
        e.isTerminated = true → t.EndsStatement ctx.listEnd false)) := by
  refine .pass (.refl ctx) heof fun hF => ?_
  exact (fromClause_derives.after hF).bind fun K source t _ hF =>
    exportEnd_derives (e := .all source) hmatter hF

theorem exportNamed_derives (hmatter : ctx.newlinesMatter = true) :
    Derives R ∅ (exportNamed g) ctx s
      (fun K e t => R.Yields ctx K s e.parts t ∧ (R.Fits t →
        e.isTerminated = true → t.EndsStatement ctx.listEnd false)) := by
  refine (braced_derives hg.exportSpecifiers).bind
    fun K names t _ hF => ?_
  refine .ask (·.isWord "from") (fun _ _ => rfl) (fun _ => rfl) ?_
  -- What follows the module, if one is named, is the same.
  have hend : ∀ K (source? : Option Literal) (u : State), Acts root t u →
      R.Yields ctx K s (names.flatMap ExportSpecifier.parts
        ++ source?.toList.map .literal) u →
      Derives R K (do
        liftM (terminator false)
        pure (Export.named names source?)) ctx u
        (fun K e t => R.Yields ctx K s e.parts t ∧ (R.Fits t →
          e.isTerminated = true → t.EndsStatement ctx.listEnd false)) :=
    fun K source? u _ hF =>
      exportEnd_derives (e := .named names source?) hmatter hF
  dsimp only
  refine .ite (fun _ => ?_) (fun _ => hend K none t .refl ?_)
  · exact Derives.bind (.map (fromClause_derives.after hF)) hend
  · rwa [Option.toList_none, List.map_nil, List.append_nil]

/-- **The default of a module.** -/
theorem exportDefault_derives (hmatter : ctx.newlinesMatter = true)
    (heof : s.current.isEof = false) :
    Derives R ∅ (exportDefault g) ctx s
      (fun K e t => R.Yields ctx K s e.parts t ∧ (R.Fits t →
        e.isTerminated = true → t.EndsStatement ctx.listEnd false)) := by
  refine .pass (.refl ctx) heof fun hF => ?_
  refine .ask (·.isKeyword .kwClass) (fun _ _ => rfl) (fun _ => rfl)
    (.ite (fun _ => ?_) (fun _ => ?_))
  · refine ((classDefinition_derives hg true).after hF).bind
      fun K c t _ hF => ?_
    have hc : R.Yields ctx K s [.expression (.classDef c)] t :=
      .wrap hF rfl (fun _ => rfl) rfl rfl
    exact (declarationEnd_derives hmatter hc).bind
      fun K _ u _ hF => .pure ⟨hF, fun _ h => nomatch h⟩
  · refine ((assignment_derives hg).after hF).bind fun K e t _ hF => ?_
    dsimp only
    refine .ite (fun hlike => ?_) (fun _ => ?_)
    · refine (declarationEnd_derives hmatter hF).bind
        fun K _ u _ hF => .pure ⟨hF, fun _ hend => ?_⟩
      rw [Export.isTerminated, hlike] at hend
      exact nomatch hend
    · exact exportEnd_derives (e := .default e) hmatter hF

theorem exportVariables_derives (hmatter : ctx.newlinesMatter = true)
    (heof : s.current.isEof = false) :
    Derives R ∅ (exportVariables g) ctx s
      (fun K e t => R.Yields ctx K s e.parts t ∧ (R.Fits t →
        e.isTerminated = true → t.EndsStatement ctx.listEnd false)) := by
  refine (variableDeclaration_derives hg heof).bind fun K d t _ hF => ?_
  exact exportEnd_derives (e := .bindings d) hmatter
    (.wrap hF rfl (fun _ => rfl) rfl rfl)

theorem exportAsync_derives :
    Derives R ∅ (exportAsync g) ctx s
      (fun K e t => R.Yields ctx K s e.parts t ∧ (R.Fits t →
        e.isTerminated = true → t.EndsStatement ctx.listEnd false)) := by
  refine .ask (·.isWord "async") (fun _ _ => rfl) (fun _ => rfl) ?_
  cases hword : s.current.isWord "async" with
  | false =>
    exact .congr (q := unexpected "declaration or export clause") rfl
      (fun _ _ _ => rfl) (unexpected_derives _)
  | true =>
    refine .peek (isSlash_of_isWord hword) (fun _ => rfl)
      (.ite (fun _ => ?_) (fun _ => unexpected_derives _))
    have heof := isEof_of_isWord hword
    refine .opening heof (fun _ => rfl) fun hF => ?_
    exact ((functionExpression_derives hg true _).after hF).bind
      fun K e u _ hF => .pure ⟨hF, fun _ h => nomatch h⟩

/-- **What an export names**, and ends if it has to be ended. -/
theorem exported_derives (hmatter : ctx.newlinesMatter = true) :
    Derives R ∅ (exported g) ctx s
      (fun K e t => R.Yields ctx K s e.parts t ∧ (R.Fits t →
        e.isTerminated = true → t.EndsStatement ctx.listEnd false)) := by
  refine .current (fun _ => rfl) ?_
  split
  case h_1 hk =>
    exact exportAll_derives hmatter
      (isEof_eq_false hk (by simp))
  case h_2 => exact exportNamed_derives hg hmatter
  case h_3 hk =>
    exact exportDefault_derives hg hmatter
      (isEof_eq_false hk (by simp))
  case h_4 hk =>
    exact exportVariables_derives hg hmatter
      (isEof_eq_false hk (by simp))
  case h_5 hk =>
    exact exportVariables_derives hg hmatter
      (isEof_eq_false hk (by simp))
  case h_6 hk =>
    exact exportVariables_derives hg hmatter
      (isEof_eq_false hk (by simp))
  case h_7 =>
    refine .here ?_
    exact (functionExpression_derives hg false _).bind
      fun K e t _ hF => .pure ⟨hF, fun _ h => by cases h⟩
  case h_8 =>
    exact (classDefinition_derives hg true).bind fun K c t _ hF =>
      .pure ⟨.wrap hF rfl (fun _ => rfl) rfl rfl, fun _ h => by cases h⟩
  case h_9 => exact exportAsync_derives hg

theorem exportStatement_derives (hmatter : ctx.newlinesMatter = true)
    (heof : s.current.isEof = false) :
    Derives R ∅ (exportStatement g) ctx s
      (fun K x t => R.Yields ctx K s [.statement x] t) := by
  refine .opening heof (fun _ => rfl) fun hF => ?_
  refine ((exported_derives hg hmatter).afterAnd hF).bind
    fun K e t _ ⟨hF, hends⟩ => .span (.pure ?_)
  refine .statement hF rfl rfl (Node.freeIn_of_nil rfl) (fun hfits => ?_)
  cases hend : e.isTerminated with
  | true => exact .of_some (if_pos hend) (hends hfits hend) rfl
  | false => exact .of_none (if_neg (Bool.eq_false_iff.1 hend))

end ScriptTree.Parse
