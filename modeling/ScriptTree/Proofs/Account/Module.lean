import ScriptTree.Parse.Module
import ScriptTree.Proofs.Account.Declaration

/-!
# Imports and exports and their tokens

The words `as` and `from` are names by their tokens and marks by their use;
they are not in the tree.
-/

namespace ScriptTree.Parse

open ScriptTree.Action State

variable {root ctx : Context} {s : State}

/-! ## Lists of names -/

section Specifiers

variable {α : Type} {parts : α → List Node} {item : Parse α}
  (hitem : ∀ s, Accounts root item ctx s
    (fun x t => s.Gathers root (parts x) t))

include hitem

/-- The loop over the names of a list. -/
theorem specifiersFrom_accounts (turns : Nat) {r : State} {found : List α}
    (hfound : r.Gathers root (found.reverse.flatMap parts) s) :
    Accounts root (specifiersFrom item turns found) ctx s
      (fun xs t => r.Gathers root (xs.flatMap parts) t) := by
  induction turns generalizing s found with
  | zero => exact .pure hfound
  | succ turns ih =>
    refine .look (s.current.isPunctuator .rBrace) rfl
      (.ite (fun _ => .pure hfound) (fun _ => ?_))
    refine (hitem s).bind fun x t _ hx => ?_
    refine (Accounts.lift (eat_accounts .comma)).bind fun _ u _ hu => ?_
    have hfound := (hfound.concat hx).later hu
    exact .ite (fun _ => ih hfound) (fun _ => .pure hfound)

/-- **A list of names** gathers the names; the commas are silent. -/
theorem specifiers_accounts :
    Accounts root (specifiers item) ctx s
      (fun xs t => s.Gathers root (xs.flatMap parts) t) :=
  .look ctx rfl (specifiersFrom_accounts hitem _ (.refl root s))

omit hitem in
/-- A list of names in its braces. -/
theorem braced_accounts {p : Parse (List α)}
    (hp : ∀ {s}, Accounts root p ctx s
      (fun xs t => s.Gathers root (xs.flatMap parts) t)) :
    Accounts root (do
      discard (expectPunctuator .lBrace)
      let names ← p
      discard (expectPunctuator .rBrace)
      return names) ctx s
      (fun xs t => s.Gathers root (xs.flatMap parts) t) := by
  refine (expectPunctuator_accounts .lBrace).discard.bind
    fun _ t _ ht => ?_
  refine hp.bind fun names u _ hnames => ?_
  refine (expectPunctuator_accounts .rBrace).discard.bind
    fun _ v _ hv => ?_
  exact .pure (ht.trans (hnames.later hv))

end Specifiers

/-- **A second name** behind the first. -/
theorem alias?_accounts {name : Parse Identifier}
    (hname : ∀ s, Accounts root name ctx s
      (fun id t => s.Gathers root [.identifier id] t)) :
    Accounts root (alias? name) ctx s
      (fun id? t => s.Gathers root (id?.toList.map .identifier) t) := by
  refine .look (s.current.isWord "as") rfl
    (.ite (fun h => ?_) (fun _ => .pure (.refl root s)))
  refine (Accounts.lift (pass_accounts
    (Token.isSilent_of_isWord h (by decide)))).bind fun _ t _ ht => ?_
  exact (hname t).bind fun id u _ hid => .pure (ht.trans hid)

/-- A name of an import list, with a second one where it is renamed. -/
theorem importSpecifier_accounts :
    Accounts root importSpecifier ctx s
      (fun x t => s.Gathers root x.parts t) := by
  refine propertyName_accounts.bind fun imported t _ himported => ?_
  refine (alias?_accounts (fun _ => identifier_accounts)).bind
    fun id? u _ hid => ?_
  exact .look (u.spanFrom _) rfl (.pure (himported.trans hid))

/-- A name of an export list. -/
theorem exportSpecifier_accounts :
    Accounts root exportSpecifier ctx s
      (fun x t => s.Gathers root x.parts t) := by
  refine identifier_accounts.bind fun localName t _ hlocal => ?_
  refine (alias?_accounts (fun _ => propertyName_accounts)).bind
    fun id? u _ hid => ?_
  exact .look (u.spanFrom _) rfl (.pure (hlocal.trans hid))

/-- The module names come from: the word is silent. -/
theorem fromClause_accounts :
    Accounts root fromClause ctx s
      (fun l t => s.Gathers root [.literal l] t) := by
  refine (expectWord_accounts (by decide)).discard.bind fun _ t _ ht => ?_
  exact moduleName_accounts.mono (fun _ _ _ h => ht.trans h)

/-! ## Imports -/

theorem importDefault_accounts :
    Accounts root importDefault ctx s
      (fun id? t => s.Gathers root (id?.toList.map .identifier) t) :=
  optionalIdentifier_accounts

/-- Whether more names follow takes a comma at most. -/
theorem moreImports_accounts (default? : Option Identifier) :
    Action.Accounts root (moreImports default?) ctx s
      (fun _ t => s.Gathers root [] t) :=
  .ite (fun _ => .pure (.refl root s)) (fun _ => eat_accounts .comma)

variable {g : Grammar} (hg : g.Gathers root)

include hg

/-- **The names behind the one for a module's default.** -/
theorem importRest_accounts {default? : Option Identifier} (start : Nat)
    {r : State}
    (hdefault : r.Gathers root (default?.toList.map .identifier) s) :
    Accounts root (importRest g default? start) ctx s
      (fun c t => r.Gathers root c.parts t) := by
  refine (Accounts.lift (eat_accounts .star)).bind fun _ t _ ht => ?_
  have hdefault := hdefault.later ht
  refine .ite (fun _ => ?_) (fun _ => ?_)
  · refine (expectWord_accounts (by decide)).discard.bind
      fun _ u _ hu => ?_
    refine identifier_accounts.bind fun name v _ hname => ?_
    refine .look (v.spanFrom start) rfl (.pure ?_)
    unfold ImportClause.parts
    rw [Option.getD_none, List.flatMap_nil, List.append_nil]
    exact (hdefault.later hu).trans hname
  refine .look (t.current.isPunctuator .lBrace) rfl
    (.ite (fun _ => ?_) (fun _ => unexpected_accounts _))
  refine (braced_accounts hg.importSpecifiers).bind
    fun names u _ hnames => ?_
  refine .look (u.spanFrom start) rfl (.pure ?_)
  unfold ImportClause.parts
  rw [Option.toList_none, List.map_nil, List.append_nil]
  exact hdefault.trans hnames

/-- The names an import binds. -/
theorem importClause_accounts :
    Accounts root (importClause g) ctx s
      (fun c t => s.Gathers root c.parts t) := by
  refine .look s.here rfl ?_
  refine importDefault_accounts.bind fun default? t _ hdefault => ?_
  refine (Accounts.lift (moreImports_accounts default?)).bind
    fun _ u _ hu => ?_
  have hdefault := hdefault.later hu
  refine .ite (fun _ => importRest_accounts hg _ hdefault) (fun _ => ?_)
  refine .look (u.spanFrom s.here) rfl (.pure ?_)
  unfold ImportClause.parts
  rw [Option.toList_none, List.map_nil, List.append_nil, Option.getD_none,
    List.flatMap_nil, List.append_nil]
  exact hdefault

theorem importClause?_accounts :
    Accounts root (importClause? g) ctx s (fun c? t =>
      s.Gathers root ((c?.map ImportClause.parts).getD []) t) := by
  refine .look (decide (s.current.kind = .string)) rfl
    (.ite (fun _ => .pure (.refl root s)) (fun _ => ?_))
  refine (importClause_accounts hg).bind fun clause t _ hclause => ?_
  refine (expectWord_accounts (by decide)).discard.bind
    fun _ u _ hu => ?_
  exact .pure (hclause.later hu)

/-- **An import** gathers its names and the module they are of. -/
theorem importStatement_accounts (hsilent : s.current.IsSilent) :
    Accounts root (importStatement g) ctx s
      (fun x t => s.Gathers root [.statement x] t) := by
  refine (Accounts.lift (skip_accounts hsilent)).bind fun _ t _ ht => ?_
  refine (importClause?_accounts hg).bind fun clause? u _ hclause => ?_
  refine moduleName_accounts.bind fun source v _ hsource => ?_
  refine (Accounts.lift (terminator_accounts false)).bind
    fun _ w _ hw => ?_
  refine .look (w.spanFrom _) rfl (.pure (.wrap ?_ rfl))
  exact (ht.2.trans (hclause.trans hsource)).later hw

/-! ## Exports -/

omit hg in
/-- Everything of another module. -/
theorem exportAll_accounts (hsilent : s.current.IsSilent) :
    Accounts root exportAll ctx s
      (fun e t => s.Gathers root e.parts t) := by
  refine (Accounts.lift (pass_accounts hsilent)).bind fun _ t _ ht => ?_
  refine fromClause_accounts.bind fun source u _ hsource => ?_
  refine (Accounts.lift (terminator_accounts false)).bind
    fun _ v _ hv => ?_
  exact .pure (ht.trans (hsource.later hv))

/-- A list of names, perhaps of another module. -/
theorem exportNamed_accounts :
    Accounts root (exportNamed g) ctx s
      (fun e t => s.Gathers root e.parts t) := by
  refine (braced_accounts hg.exportSpecifiers).bind
    fun names t _ hnames => ?_
  refine .look (t.current.isWord "from") rfl ?_
  dsimp only
  -- What follows the module, if one is named, is the same.
  have hend : ∀ source? u, Acts root t u →
      t.Gathers root (source?.toList.map .literal) u →
      Accounts root (do
        liftM (terminator false)
        pure (Export.named names source?)) ctx u
        (fun e v => s.Gathers root e.parts v) := by
    intro source? u _ hsource
    refine (Accounts.lift (terminator_accounts false)).bind
      fun _ v _ hv => ?_
    exact .pure ((hnames.trans hsource).later hv)
  refine .ite (fun _ => ?_) (fun _ => .look none rfl ?_)
  · exact Accounts.bind (.map fromClause_accounts) hend
  · exact hend none t .refl (.refl root t)

/-- **The default of a module.** -/
theorem exportDefault_accounts (hsilent : s.current.IsSilent) :
    Accounts root (exportDefault g) ctx s
      (fun e t => s.Gathers root e.parts t) := by
  refine (Accounts.lift (pass_accounts hsilent)).bind fun _ t _ ht => ?_
  refine .look (t.current.isKeyword .kwClass) rfl
    (.ite (fun _ => ?_) (fun _ => ?_))
  · refine (classDefinition_accounts hg true).bind fun c u _ hc => ?_
    refine (Accounts.lift declarationEnd_accounts).bind
      fun _ v _ hv => .pure ?_
    have hc : t.Gathers root [.expression (.classDef c)] u := .wrap hc rfl
    exact ht.trans (hc.later hv)
  · refine (assignment_accounts hg).bind fun e u _ he => ?_
    dsimp only
    refine .ite (fun _ => ?_) (fun _ => ?_)
    · refine (Accounts.lift declarationEnd_accounts).bind
        fun _ v _ hv => .pure ?_
      exact ht.trans (he.later hv)
    · refine (Accounts.lift (terminator_accounts false)).bind
        fun _ v _ hv => .pure ?_
      exact ht.trans (he.later hv)

theorem exportVariables_accounts (hsilent : s.current.IsSilent) :
    Accounts root (exportVariables g) ctx s
      (fun e t => s.Gathers root e.parts t) := by
  refine (variableDeclaration_accounts hg hsilent).bind
    fun ⟨kind, declarators, span⟩ t _ hd => ?_
  refine (Accounts.lift (terminator_accounts false)).bind
    fun _ u _ hu => ?_
  exact .pure ((hd span).later hu)

theorem exportAsync_accounts :
    Accounts root (exportAsync g) ctx s
      (fun e t => s.Gathers root e.parts t) := by
  refine .look (s.current.isWord "async") rfl
    (.look s.scanner.peek rfl (.ite (fun h => ?_)
      (fun _ => unexpected_accounts _)))
  have hsilent := Token.isSilent_of_isWord
    (Bool.and_eq_true_iff.1 h).1 (by decide)
  refine (Accounts.lift (skip_accounts hsilent)).bind fun _ t _ ht => ?_
  exact (functionExpression_accounts hg true _).bind
    fun e u _ he => .pure (ht.2.trans he)

/-- **What an export names.** -/
theorem exported_accounts :
    Accounts root (exported g) ctx s
      (fun e t => s.Gathers root e.parts t) := by
  refine .look s.current rfl ?_
  split
  case h_1 hk =>
    exact exportAll_accounts (Token.isSilent_of_kind_punctuator hk)
  case h_2 => exact exportNamed_accounts hg
  case h_3 hk =>
    exact exportDefault_accounts hg (Token.isSilent_of_kind_keyword hk)
  case h_4 hk =>
    exact exportVariables_accounts hg (Token.isSilent_of_kind_keyword hk)
  case h_5 hk =>
    exact exportVariables_accounts hg (Token.isSilent_of_kind_keyword hk)
  case h_6 hk =>
    exact exportVariables_accounts hg (Token.isSilent_of_kind_keyword hk)
  case h_7 =>
    refine .look s.here rfl ?_
    exact (functionExpression_accounts hg false _).bind
      fun e t _ he => .pure he
  case h_8 =>
    exact (classDefinition_accounts hg true).bind
      fun c t _ hc => .pure (.wrap hc rfl)
  case h_9 => exact exportAsync_accounts hg

/-- **An export** gathers what it names. -/
theorem exportStatement_accounts (hsilent : s.current.IsSilent) :
    Accounts root (exportStatement g) ctx s
      (fun x t => s.Gathers root [.statement x] t) := by
  refine (Accounts.lift (skip_accounts hsilent)).bind fun _ t _ ht => ?_
  refine (exported_accounts hg).bind fun e u _ he => ?_
  refine .look (u.spanFrom _) rfl (.pure (.wrap ?_ rfl))
  exact ht.2.trans he

end ScriptTree.Parse
