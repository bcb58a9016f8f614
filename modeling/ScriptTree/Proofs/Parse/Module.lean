import ScriptTree.Parse.Module
import ScriptTree.Proofs.Parse.Declaration

/-!
# Imports and exports in their places

The lists of names have no nodes of their own, so of a list it is said
that its names stand in a row (`specifiersFrom_ensures`), whatever it is a
list of.
-/

namespace ScriptTree.Parse

open ScriptTree.Action

variable {root ctx : Context} {s : State} {P : Expression → Prop}

/-! ## Lists of names -/

section Specifiers

variable {α : Type} {parts : α → List Node} {item : Parse α}
  (hitem : ∀ s, Ensures root item ctx s (fun x t =>
    State.Parts root P s.here (parts x) t))

include hitem

/-- The loop adds the parts of one name after those of the others. -/
theorem specifiersFrom_ensures (turns : Nat) {b : Nat} {found : List α}
    (hfound : State.Parts root P b (found.reverse.flatMap parts) s) :
    Ensures root (specifiersFrom item turns found) ctx s (fun xs t =>
      State.Parts root P b (xs.flatMap parts) t) := by
  induction turns generalizing s found with
  | zero => exact .pure hfound
  | succ turns ih =>
    refine .look (s.current.isPunctuator .rBrace) rfl
      (.ite (fun _ => .pure hfound) (fun _ => ?_))
    refine (hitem s).bind fun x t hst hx => ?_
    have hfound : State.Parts root P b ((x :: found).reverse.flatMap parts)
        t := by
      rw [List.reverse_cons, List.flatMap_append, List.flatMap_singleton]
      exact hfound.append hst hx
    refine (Ensures.lift (eat_ensures .comma)).bind fun _ u htu _ => ?_
    have hfound := hfound.later htu
    exact .ite (fun _ => ih hfound) (fun _ => .pure hfound)

/-- **A list of names**, up to the brace that closes it. -/
theorem specifiers_ensures :
    Ensures root (specifiers item) ctx s (fun xs t =>
      State.Parts root P s.here (xs.flatMap parts) t) :=
  .look ctx rfl (specifiersFrom_ensures hitem _ (.nil (Nat.le_refl _)))

omit hitem in
/-- A list of names in its braces. -/
theorem braced_ensures {p : Parse (List α)}
    (hp : ∀ {s}, Ensures root p ctx s (fun xs t =>
      State.Parts root P s.here (xs.flatMap parts) t)) :
    Ensures root (do
      discard (expectPunctuator .lBrace)
      let names ← p
      discard (expectPunctuator .rBrace)
      return names) ctx s (fun xs t =>
        State.Parts root P s.here (xs.flatMap parts) t) := by
  refine (expectPunctuator_ensures .lBrace).discard.bind
    fun _ t hst _ => ?_
  refine hp.bind fun names u htu hnames => ?_
  refine (expectPunctuator_ensures .rBrace).discard.bind
    fun _ v huv _ => ?_
  exact .pure ((hnames.sooner hst.here_le).later huv)

end Specifiers

/-- **A second name** behind the first. -/
theorem alias?_ensures {name : Parse Identifier}
    (hname : ∀ s, Ensures root name ctx s
      (State.Reads (As root P .identifier) s.here)) :
    Ensures root (alias? name) ctx s (fun id? t =>
      State.Parts root P s.here (id?.toList.map .identifier) t) := by
  refine .look (s.current.isWord "as") rfl
    (.ite (fun h => ?_) (fun _ => .pure (.nil (Nat.le_refl _))))
  refine (Ensures.lift (advance_ensures
    (isEof_of_isWord h)).discard).bind fun _ t hst _ => ?_
  refine (hname t).bind fun id u htu hid => ?_
  exact .pure ((hid.parts htu).sooner hst.here_le)

/-- A name of an import list, with a second one where it is renamed. -/
theorem importSpecifier_ensures (P : Expression → Prop) :
    Ensures root importSpecifier ctx s (fun x t =>
      State.Parts root P s.here x.parts t) := by
  refine (propertyName_ensures P).bind fun imported t hst himported => ?_
  refine (alias?_ensures (P := P) (fun _ => identifier_ensures P)).bind
    fun alias? u htu halias => ?_
  refine .look (u.spanFrom imported.span.start) rfl (.pure ?_)
  exact (himported.parts hst).append htu halias

/-- A name of an export list; the second may be a reserved word. -/
theorem exportSpecifier_ensures (P : Expression → Prop) :
    Ensures root exportSpecifier ctx s (fun x t =>
      State.Parts root P s.here x.parts t) := by
  refine (identifier_ensures P).bind fun localName t hst hlocal => ?_
  refine (alias?_ensures (P := P) (fun _ => propertyName_ensures P)).bind
    fun alias? u htu halias => ?_
  refine .look (u.spanFrom localName.span.start) rfl (.pure ?_)
  exact (hlocal.parts hst).append htu halias

variable {g : Grammar} (hg : g.Sound root P)

include hg

/-- The names of an import list, with its braces. -/
theorem importList_ensures :
    Ensures root (importList g) ctx s (fun xs t =>
      State.Parts root P s.here (xs.flatMap ImportSpecifier.parts) t) :=
  braced_ensures hg.importSpecifiers

/-- The names of an export list, with its braces. -/
theorem exportList_ensures :
    Ensures root (exportList g) ctx s (fun xs t =>
      State.Parts root P s.here (xs.flatMap ExportSpecifier.parts) t) :=
  braced_ensures hg.exportSpecifiers

omit hg

/-- The name of the module is what there is of the clause. -/
theorem fromClause_ensures (P : Expression → Prop) :
    Ensures root fromClause ctx s (fun l t =>
      State.Parts root P s.here [.literal l] t) := by
  refine (expectWord_ensures _).discard.bind fun _ t hst _ => ?_
  refine (moduleName_ensures P).mono (fun l u htu hl => ?_)
  exact (hl.parts htu).sooner hst.here_le

/-! ## Imports -/

/-- The name for a module's default, if there is one. -/
theorem importDefault_ensures (P : Expression → Prop) :
    Ensures root importDefault ctx s (fun id? t =>
      State.Parts root P s.here (id?.toList.map .identifier) t) := by
  refine .look (decide (s.current.kind = .identifier)) rfl
    (.ite (fun _ => ?_) (fun _ => .pure (.nil (Nat.le_refl _))))
  refine (identifier_ensures P).bind fun id t hst hid => ?_
  exact .pure (hid.parts hst)

/-- Whether more names follow takes a comma at most. -/
theorem moreImports_ensures (default? : Option Identifier) :
    Action.Ensures root (moreImports default?) ctx s (fun _ _ => True) :=
  .ite (fun _ => .pure trivial)
    (fun _ => (eat_ensures .comma).mono (fun _ _ _ _ => trivial))

include hg

/-- **The names behind the one for the default**: their clause began before
that one. -/
theorem importRest_ensures {default? : Option Identifier} {start : Nat}
    (hdefault : State.Parts root P start
      (default?.toList.map .identifier) s) :
    Ensures root (importRest g default? start) ctx s (fun c t =>
      State.Parts root P start c.parts t) := by
  refine (Ensures.lift (eat_ensures .star)).bind fun _ t hst _ => ?_
  have hdefault := hdefault.later hst
  refine .ite (fun _ => ?_) (fun _ => ?_)
  · refine (expectWord_ensures _).discard.bind fun _ u htu _ => ?_
    refine (identifier_ensures P).bind fun name v huv hname => ?_
    refine .look (v.spanFrom start) rfl (.pure ?_)
    have hparts := (hdefault.later htu).read huv hname
    show State.Parts root P start (_ ++ _ ++ []) v
    rwa [List.append_nil]
  · refine .look (t.current.isPunctuator .lBrace) rfl
      (.ite (fun _ => ?_) (fun _ => unexpected_ensures _))
    refine (importList_ensures hg).bind fun names u htu hnames => ?_
    refine .look (u.spanFrom start) rfl (.pure ?_)
    have hparts := hdefault.append htu hnames
    show State.Parts root P start (_ ++ [] ++ _) u
    rwa [List.append_nil]

/-- The names an import binds. -/
theorem importClause_ensures :
    Ensures root (importClause g) ctx s (fun c t =>
      State.Parts root P s.here c.parts t) := by
  refine .look s.here rfl ?_
  refine (importDefault_ensures P).bind fun default? t _ hdefault => ?_
  refine (Ensures.lift (moreImports_ensures default?)).bind
    fun _ u htu _ => ?_
  have hdefault := hdefault.later htu
  refine .ite (fun _ => importRest_ensures hg hdefault) (fun _ => ?_)
  refine .look (u.spanFrom s.here) rfl (.pure ?_)
  show State.Parts root P s.here (_ ++ [] ++ []) u
  rwa [List.append_nil, List.append_nil]

/-- An import for its effect has none. -/
theorem importClause?_ensures :
    Ensures root (importClause? g) ctx s (fun c? t =>
      State.Parts root P s.here ((c?.map ImportClause.parts).getD []) t) := by
  refine .look (decide (s.current.kind = .string)) rfl
    (.ite (fun _ => .pure (.nil (Nat.le_refl _))) (fun _ => ?_))
  refine (importClause_ensures hg).bind fun c t _ hc => ?_
  refine (expectWord_ensures _).discard.bind fun _ u htu _ => ?_
  exact .pure (hc.later htu)

/-- **An import** is a statement from its first word to its terminator. -/
theorem importStatement_ensures (heof : s.current.isEof = false) :
    Ensures root (importStatement g) ctx s
      (State.Reads (As root P .statement) s.here) := by
  refine .of_good (fun _ hs => ?_)
  refine (Ensures.lift (advance_ensures heof)).bind
    fun token t hst htook => ?_
  refine (importClause?_ensures hg).bind fun clause? u htu hclause => ?_
  refine (moduleName_ensures P).bind fun source v huv hsource => ?_
  refine terminated fun w hvw => ?_
  refine .look (w.spanFrom token.span.start) rfl (.pure ?_)
  exact behindWord hs hst htook (htu.trans (huv.trans hvw)) rfl rfl
    ((hclause.read huv hsource).later hvw)

/-! ## Exports -/

omit hg in
/-- Everything of another module. -/
theorem exportAll_ensures (P : Expression → Prop)
    (heof : s.current.isEof = false) :
    Ensures root exportAll ctx s (fun e t =>
      State.Parts root P s.here e.parts t) := by
  refine (Ensures.lift (advance_ensures heof).discard).bind
    fun _ t hst _ => ?_
  refine (fromClause_ensures P).bind fun source u _ hsource => ?_
  refine terminated fun v huv => .pure ?_
  exact (hsource.sooner hst.here_le).later huv

/-- A list of names, with the module they are of, if they are of another. -/
theorem exportNamed_ensures :
    Ensures root (exportNamed g) ctx s (fun e t =>
      State.Parts root P s.here e.parts t) := by
  refine (exportList_ensures hg).bind fun names t _ hnames => ?_
  refine .look (t.current.isWord "from") rfl ?_
  -- The terminator follows whether or not a module is named.
  have hend : ∀ source? u, t.Leads root u →
      State.Parts root P t.here (source?.toList.map .literal) u →
      Ensures root (do
          liftM (terminator false)
          pure (Export.named names source?)) ctx u (fun e v =>
        State.Parts root P s.here e.parts v) := by
    intro source? u htu hsource
    refine terminated fun v huv => .pure ?_
    exact (hnames.append htu hsource).later huv
  have hfrom : Ensures root (some <$> fromClause) ctx t (fun source? u =>
      State.Parts root P t.here (source?.toList.map .literal) u) :=
    .map (fromClause_ensures P)
  dsimp only
  refine .ite (fun _ => hfrom.bind hend) (fun _ => .of_good fun _ ht => ?_)
  exact .look none rfl (hend none t (.refl ht) (.nil (Nat.le_refl _)))

/-- **The default of a module.** -/
theorem exportDefault_ensures (heof : s.current.isEof = false) :
    Ensures root (exportDefault g) ctx s (fun e t =>
      State.Parts root P s.here e.parts t) := by
  refine (Ensures.lift (advance_ensures heof).discard).bind
    fun _ t hst _ => ?_
  refine .look (t.current.isKeyword .kwClass) rfl
    (.ite (fun _ => ?_) (fun _ => ?_))
  · refine (classDefinition_ensures hg true).bind fun c u htu hc => ?_
    refine (Ensures.lift declarationEnd_ensures).bind fun _ v huv _ => ?_
    have he : State.Reads (As root P .expression) t.here (.classDef c) u :=
      ⟨hc.1, hc.2.wrap rfl rfl rfl (hg.primary rfl)⟩
    exact .pure (((he.parts htu).sooner hst.here_le).later huv)
  · refine (assignment_ensures hg).bind fun e u htu he => ?_
    have hparts := (he.parts htu).sooner hst.here_le
    dsimp only
    refine .ite (fun _ => ?_) (fun _ => ?_)
    · refine (Ensures.lift declarationEnd_ensures).bind
        fun _ v huv _ => .pure (hparts.later huv)
    · exact terminated fun v huv => .pure (hparts.later huv)

/-- Variables, which are parts by way of their declaration. -/
theorem exportVariables_ensures {kind : VarKind}
    (hkind : varKind? s.current.kind = some kind) :
    Ensures root (exportVariables g) ctx s (fun e t =>
      State.Parts root P s.here e.parts t) := by
  refine (variableDeclaration_ensures hg hkind).bind fun d t hst hd => ?_
  exact terminated fun u htu => .pure ((hd.1.parts hst).later htu)

/-- A function that runs on the side, with the word for it. -/
theorem exportAsync_ensures :
    Ensures root (exportAsync g) ctx s (fun e t =>
      State.Parts root P s.here e.parts t) := by
  refine .look (s.current.isWord "async") rfl (.look s.scanner.peek rfl ?_)
  refine .ite (fun h => ?_) (fun _ => unexpected_ensures _)
  refine .of_good (fun _ hs => ?_)
  refine (Ensures.lift (advance_ensures (isEof_of_isWord
    (Bool.and_eq_true_iff.1 h).1))).bind fun token t hst htook => ?_
  dsimp only
  rw [htook.start_eq]
  refine (functionExpression_ensures hg true hs.isCut_here
    hst.here_le).bind fun e u htu he => .pure ?_
  exact he.1.parts (hst.trans htu)

/-- **What an export names** are nodes in a row. -/
theorem exported_ensures :
    Ensures root (exported g) ctx s (fun e t =>
      State.Parts root P s.here e.parts t) := by
  refine .look s.current rfl (.of_good fun _ hs => ?_)
  split
  case h_1 hk =>
    exact exportAll_ensures P (isEof_eq_false hk (fun h => nomatch h))
  case h_2 => exact exportNamed_ensures hg
  case h_3 hk =>
    exact exportDefault_ensures hg (isEof_eq_false hk (fun h => nomatch h))
  case h_4 hk => exact exportVariables_ensures hg (by rw [hk]; rfl)
  case h_5 hk => exact exportVariables_ensures hg (by rw [hk]; rfl)
  case h_6 hk => exact exportVariables_ensures hg (by rw [hk]; rfl)
  case h_7 =>
    refine .look s.here rfl ?_
    refine (functionExpression_ensures hg false hs.isCut_here
      (Nat.le_refl _)).bind fun e t hst he => .pure ?_
    exact he.1.parts hst
  case h_8 =>
    refine (classDefinition_ensures hg true).bind fun c t hst hc => .pure ?_
    have he : State.Reads (As root P .expression) s.here (.classDef c) t :=
      ⟨hc.1, hc.2.wrap rfl rfl rfl (hg.primary rfl)⟩
    exact he.parts hst
  case h_9 => exact exportAsync_ensures hg

/-- **An export** is a statement from its first word on. -/
theorem exportStatement_ensures (heof : s.current.isEof = false) :
    Ensures root (exportStatement g) ctx s
      (State.Reads (As root P .statement) s.here) := by
  refine .of_good (fun _ hs => ?_)
  refine (Ensures.lift (advance_ensures heof)).bind
    fun token t hst htook => ?_
  refine (exported_ensures hg).bind fun e u htu he => ?_
  refine .look (u.spanFrom token.span.start) rfl (.pure ?_)
  exact behindWord hs hst htook htu rfl rfl he

end ScriptTree.Parse
