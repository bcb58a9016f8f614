import ScriptTree.Parse.Module
import ScriptTree.Proofs.Mirror.Loop

/-!
# Imports and exports in both texts

A list of names is followed where its brace is read too, and the names of
an import where the name of the module is read, for it stands behind them.
-/

namespace ScriptTree.Parse

open ScriptTree.Action Mirror

variable {M : Mirror} {E : State → Prop} {H B : Prop}
  {root ctx : Context} {s s' t t' : State} {α β : Type} [M.Lawful]

/-! ## Lists of names -/

section Specifiers

variable [Movable α] [HasNodes α] [Plain α] {item : Parse α}
  (hitem : Alike M M.Fits M.Along item item)

include hitem

/-- One turn of the loop over the names, behind which the brace is read. -/
theorem specifiersTurn_mirrors (found : List α) (s s' : State) :
    Mirrors M M.More (M.Along s s') (M.Marked found) M.move
      (specifiersTurn item found) (specifiersTurn item (M.move found)) ctx s
      s' M.Along := by
  refine .of_back (.look (s.current.isPunctuator .rBrace)
    (s'.current.isPunctuator .rBrace) rfl rfl ?_)
  refine .ite (fun h => ?_) (fun _ => ?_) (fun _ => ?_)
  · rw [(h.1.inside h.2).asks (Token.asks_punctuator .rBrace)]
  · exact .pure And.left marked_reverse.2
      (congrArg Turn.done List.map_reverse.symm)
  refine (hitem And.left).more.seq (fun x t t' => ?_)
  refine (eat_mirrors (by decide) And.right).seq (fun more u u' => ?_)
  refine .ite (fun _ => Iff.rfl)
    (fun _ => .pure And.right (fun h => marked_cons.2 (.inr h)) rfl)
    (fun _ => .pure And.right (fun h => (not_marked _ h).elim) ?_)
  exact congrArg Turn.done (List.map_reverse (l := x :: found)).symm

theorem specifiers_alike (hl : (specifiersLoop item).Proceeds M.root)
    (hl' : (specifiersLoop item).Proceeds M.image) :
    Alike M M.More M.Along (specifiers item) (specifiers item) := by
  intro H ctx s s' h
  refine .look ctx (M.reflect ctx) rfl rfl ?_
  have hrun := Loop.run_mirrors ctx (specifiersTurn_mirrors hitem) hl hl' []
    s s'
  exact hrun.mono h False.elim (fun _ => id) (fun _ _ => id)

omit [Plain α] hitem in
/-- A list of names in its braces. -/
theorem braced_alike [M.Backward E] {p q : Parse (List α)}
    (hp : Alike M M.More M.Along p q) :
    Alike M E M.Start
      (do
        discard (expectPunctuator .lBrace)
        let names ← p
        discard (expectPunctuator .rBrace)
        return names)
      (do
        discard (expectPunctuator .lBrace)
        let names ← q
        discard (expectPunctuator .rBrace)
        return names) := by
  intro H ctx s s' h
  refine (expectPunctuator_mirrors (by decide) h).discard.seq
    (fun _ t t' => ?_)
  refine (hp And.right).bindMore
    (fun _ _ => (expectPunctuator_past .rBrace).past
      (fun _ _ => .pure trivial)) (fun names u u' => ?_)
  exact (expectPunctuator_mirrors (by decide)
    (fun h => h.2.start)).discard.seq (fun _ _ _ =>
      .pure And.right (fun h => h.resolve_left id) rfl)

end Specifiers

/-- **A second name** is the same in both texts. -/
theorem alias?_alike {name : Parse Identifier}
    (hname : Alike M M.Fits M.Start name name)
    (hruns : ∀ ctx s, Ensures M.root name ctx s (fun _ _ => True)) :
    Alike M M.Fits M.Along (alias? name) (alias? name) := by
  intro H ctx s s' h
  refine .look (s.current.isWord "as") (s'.current.isWord "as") rfl rfl ?_
  refine .test (Token.asks_word "as") (fun hH => (h hH).start)
    (fun hword => ?_) (fun hword => ?_) (fun _ => .pure h False.elim rfl)
  · exact (advance_past (isEof_of_isWord hword)).past (fun _ _ =>
      (hruns _ _).bind (fun _ _ _ _ => .pure trivial))
  · refine (advance_mirrors_word And.right hword).discard.seq
      (fun _ t t' => ?_)
    exact (hname (fun h => h.2.start)).seq
      (fun _ _ _ => .pure And.right False.elim rfl)

theorem importSpecifier_alike :
    Alike M M.Fits M.Along importSpecifier importSpecifier := by
  intro H ctx s s' h
  refine (propertyName_mirrors (fun hH => (h hH).start)).seq
    (fun imported t t' => ?_)
  refine (alias?_alike identifier_mirrors (fun _ _ =>
    (identifier_ensures (fun _ => True)).mono (fun _ _ _ _ => trivial))
    And.right).seq (fun alias? u u' => ?_)
  exact .span (fun h => h.2.consumedTo_eq) (.pure And.right False.elim rfl)

theorem exportSpecifier_alike :
    Alike M M.Fits M.Along exportSpecifier exportSpecifier := by
  intro H ctx s s' h
  refine (identifier_mirrors (fun hH => (h hH).start)).seq
    (fun localName t t' => ?_)
  refine (alias?_alike propertyName_mirrors (fun _ _ =>
    (propertyName_ensures (fun _ => True)).mono (fun _ _ _ _ => trivial))
    And.right).seq (fun alias? u u' => ?_)
  exact .span (fun h => h.2.consumedTo_eq) (.pure And.right False.elim rfl)

theorem fromClause_alike :
    Alike M M.Fits M.Start fromClause fromClause :=
  fun h => (expectWord_mirrors "from" h).discard.seq
    (fun _ _ _ => moduleName_mirrors (fun h => h.2.start))

variable {g : Grammar} (hg : g.Mirrored M)

include hg

theorem importList_alike [M.Backward E] :
    Alike M E M.Start (importList g) (importList g) :=
  braced_alike hg.importSpecifiers

theorem exportList_alike [M.Backward E] :
    Alike M E M.Start (exportList g) (exportList g) :=
  braced_alike hg.exportSpecifiers

/-! ## Imports -/

omit hg in
theorem importDefault_alike [M.Backward E] :
    Alike M E M.Along importDefault importDefault := by
  intro H ctx s s' h
  refine .look (decide (s.current.kind = .identifier))
    (decide (s'.current.kind = .identifier)) rfl rfl ?_
  refine .test (c := fun t => t.kind = .identifier)
    (Token.asks_kind (fun h => nomatch h)) (fun hH => (h hH).start)
    (fun _ => ?_) (fun _ => ?_) (fun _ => .pure h False.elim rfl)
  · exact (identifier_ensures (fun _ => True)).bind
      (fun _ _ _ h => .pure h.1)
  · exact (identifier_mirrors (fun hH => hH.2.start)).seq
      (fun _ _ _ => .pure And.right False.elim rfl)

omit hg in
theorem moreImports_mirrors [M.Backward E] (default? : Option Identifier)
    (h : H → M.Along s s') :
    Mirrors M E H False id (liftM (moreImports default?))
      (liftM (moreImports (M.move default?))) ctx s s' M.Along := by
  cases default? with
  | none => exact .pure h False.elim rfl
  | some id => exact eat_mirrors (by decide) h

/-- The names of an import, if more is read behind them. -/
theorem importRest_mirrors (default? : Option Identifier) (start : Nat)
    (h : H → M.Along s s') :
    Mirrors M M.More H False M.move (importRest g default? start)
      (importRest g (M.move default?) (M.place start)) ctx s s'
      M.Along := by
  refine (eat_mirrors (by decide) h).seq (fun _ t t' => ?_)
  refine .ite (fun _ => Iff.rfl) (fun _ => ?_) (fun _ => ?_)
  · refine (expectWord_mirrors "as" (fun h => h.2.start)).discard.seq
      (fun _ u u' => ?_)
    refine (identifier_mirrors (fun h => h.2.start)).seq
      (fun name v v' => ?_)
    exact .span (fun h => h.2.consumedTo_eq)
      (.pure And.right False.elim rfl)
  · refine .of_back (.look (t.current.isPunctuator .lBrace)
      (t'.current.isPunctuator .lBrace) rfl rfl ?_)
    refine .ite (fun h => ?_) (fun _ => ?_) (fun _ => unexpected_mirrors _)
    · rw [(h.1.2.inside h.2).asks (Token.asks_punctuator .lBrace)]
    refine (importList_alike hg (fun h => h.1.2.start)).seq
      (fun names u u' => ?_)
    exact .span (fun h => h.2.consumedTo_eq)
      (.pure And.right False.elim rfl)

theorem importClause_alike :
    Alike M M.More M.Along (importClause g) (importClause g) := by
  intro H ctx s s' h
  refine .of_back (.here (fun hH => ((h hH.1).inside hH.2).toFresh) ?_)
  refine (importDefault_alike (fun hH => h hH.1)).seq
    (fun default? t t' => ?_)
  refine (moreImports_mirrors default? And.right).seq (fun _ u u' => ?_)
  refine .ite (fun _ => Iff.rfl)
    (fun _ => importRest_mirrors hg default? _ And.right) (fun _ => ?_)
  exact .span (fun h => h.2.consumedTo_eq) (.pure And.right False.elim rfl)

theorem importClause?_alike :
    Alike M M.More M.Along (importClause? g) (importClause? g) := by
  intro H ctx s s' h
  refine .of_back (.look (decide (s.current.kind = .string))
    (decide (s'.current.kind = .string)) rfl rfl ?_)
  refine .ite (fun hH => ?_)
    (fun _ => .pure (fun hH => h hH.1) False.elim rfl) (fun _ => ?_)
  · rw [((h hH.1).inside hH.2).kind_eq]
  refine (importClause_alike hg (fun hH => h hH.1)).seq
    (fun clause t t' => ?_)
  exact (expectWord_mirrors "from" (fun h => h.2.start)).discard.seq
    (fun _ _ _ => .pure And.right False.elim rfl)

/-- **An import is the same in both texts.** -/
theorem importStatement_mirrors {k : Keyword} (h : H → M.Fresh s s')
    (hkind : s.current.kind = .keyword k) :
    Mirrors M M.Fits H False M.move (importStatement g) (importStatement g)
      ctx s s' M.Along := by
  refine (word_mirrors h hkind).seq (fun token t t' => ?_)
  refine (importClause?_alike hg And.right).bindMore (fun _ _ => ?_)
    (fun clause? u u' => ?_)
  · refine Ensures.past ((moduleName_ensures (fun _ => True)).mono
      (fun _ _ _ h => h.1)) (fun _ v => ?_)
    exact terminated (fun w _ =>
      .look (w.spanFrom token.span.start) rfl (.pure trivial))
  refine (moduleName_mirrors (fun h => h.2.start)).bind
    (fun source v v' => ?_)
  refine (terminator_mirrors false And.right).seq (fun _ w w' => ?_)
  refine .span (fun h => h.2.consumedTo_eq) (.pure And.right ?_ rfl)
  rintro ((h | h) | h)
  · exact h.elim
  · exact (not_marked _ h).elim
  · exact h.statement (fun _ hc => List.mem_append_right _ hc)

/-! ## Exports -/

omit hg in
theorem exportAll_mirrors (h : H → M.Fresh s s')
    (hkind : s.current.kind = .punctuator .star) :
    Mirrors M M.Fits H False M.move exportAll exportAll ctx s s'
      M.Along := by
  refine (advance_mirrors_kind h hkind (fun h => nomatch h)
    (fun h => nomatch h)).discard.seq (fun _ t t' => ?_)
  refine (fromClause_alike (fun h => h.2.start)).bind
    (fun source u u' => ?_)
  refine (terminator_mirrors false And.right).seq
    (fun _ v v' => .pure And.right ?_ rfl)
  exact fun h => (h.resolve_left id).sub (fun _ hn => hn)

theorem exportNamed_mirrors (h : H → M.Start s s') :
    Mirrors M M.Fits H False M.move (exportNamed g) (exportNamed g) ctx s s'
      M.Along := by
  refine (exportList_alike hg h).seq (fun names t t' => ?_)
  have hend {H : Prop} (source? : Option Literal) (u u' : State)
      (h : H → M.Along u u') :
      Mirrors M M.Fits H (M.Marked source?) M.move
        (do
          liftM (terminator false)
          pure (Export.named names source?))
        (do
          liftM (terminator false)
          pure (Export.named (M.move names) (M.move source?))) ctx u u'
        M.Along := by
    refine (terminator_mirrors false h).seq
      (fun _ v v' => .pure And.right (fun h => h.sub ?_) rfl)
    exact fun n hn => List.mem_append_right _ (by simpa using hn)
  refine .look (t.current.isWord "from") (t'.current.isWord "from") rfl rfl ?_
  dsimp only
  refine .test (Token.asks_word "from") (fun h => h.2.start)
    (fun _ => ?_) (fun _ => ?_) (fun _ => ?_)
  · refine Ensures.past (.map ((expectWord_ensures "from").discard.bind
      (fun _ _ _ ⟨_, h⟩ => .later h.past ((moduleName_ensures
        (fun _ => True)).mono (fun _ _ _ _ => trivial))))) (fun _ u => ?_)
    exact terminated (fun _ _ => .pure trivial)
  · have hfrom : Mirrors M M.Fits ((H ∧ M.Along t t') ∧ M.Fresh t t') False
        M.move (some <$> fromClause) (some <$> fromClause) ctx t t'
        M.Along :=
      (fromClause_alike (fun h => h.2.start)).map (fun _ => rfl)
        (fun _ h => marked_some.2 (h.resolve_left id))
    exact hfrom.bind (fun source? u u' => (hend source? u u' And.right).mono
      id (fun h => h.resolve_left id) (fun _ => id) (fun _ _ => id))
  · exact (hend none t t' And.right).mono id False.elim (fun _ => id)
      (fun _ _ => id)

/-- **The default of a module** is the same in both texts. -/
theorem exportDefault_mirrors {k : Keyword} (h : H → M.Fresh s s')
    (hkind : s.current.kind = .keyword k) :
    Mirrors M M.Fits H False M.move (exportDefault g) (exportDefault g) ctx
      s s' M.Along := by
  refine (word_mirrors h hkind).discard.seq (fun _ t t' => ?_)
  have hend {H : Prop} (e : Expression) {action : Action Unit}
      {u u' : State}
      (hend : Mirrors M M.Fits H False id (liftM action) (liftM action) ctx
        u u' M.Along) :
      Mirrors M M.Fits H (M.Marked e) M.move
        (do
          liftM action
          pure (Export.default e))
        (do
          liftM action
          pure (Export.default (M.move e))) ctx u u' M.Along :=
    hend.seq (fun _ _ _ => .pure And.right
      (fun h => h.sub (fun _ hn => hn)) rfl)
  refine .look (t.current.isKeyword .kwClass)
    (t'.current.isKeyword .kwClass) rfl rfl ?_
  refine .test (Token.asks_keyword .kwClass) (fun h => h.2.start)
    (fun _ => ?_) (fun _ => ?_) (fun _ => ?_)
  · refine (classDefinition_ensures hg.sound true).bind
      (fun _ _ _ hc => .later hc.1 ?_)
    exact (Ensures.lift declarationEnd_ensures).bind
      (fun _ _ _ _ => .pure trivial)
  · refine (classDefinition_alike hg true (fun h => h.2.start)).bind
      (fun c u u' => ?_)
    exact (hend (.classDef c) (declarationEnd_mirrors And.right)).mono id
      (fun h => (h.resolve_left id).expression (fun _ hc => hc))
      (fun _ => id) (fun _ _ => id)
  · refine (assignment_alike hg (fun h => h.2.start)).bind
      (fun e u u' => ?_)
    have hsame : (M.move e).isDeclarationLike = e.isDeclarationLike :=
      Expression.move_isDeclarationLike M.place e
    dsimp only
    rw [hsame]
    refine .mono (.ite (fun _ => Iff.rfl)
      (fun _ => hend e (declarationEnd_mirrors And.right))
      (fun _ => hend e (terminator_mirrors false And.right))) id
      (fun h => h.resolve_left id) (fun _ => id) (fun _ _ => id)

theorem exportVariables_mirrors {kind : VarKind} (h : H → M.Fresh s s')
    (hkind : varKind? s.current.kind = some kind) :
    Mirrors M M.Fits H False M.move (exportVariables g) (exportVariables g)
      ctx s s' M.Along := by
  refine (variableDeclaration_mirrors hg h hkind).bind (fun d t t' => ?_)
  refine (terminator_mirrors false And.right).seq
    (fun _ u u' => .pure And.right (fun h => ?_) rfl)
  exact ⟨_, List.mem_singleton_self _,
    (h.resolve_left id).node (fun _ hc => hc)⟩

/-- **A function that runs on the side** is one in both texts. -/
theorem exportAsync_mirrors (h : H → M.Fresh s s') :
    Mirrors M M.Fits H False M.move (exportAsync g) (exportAsync g) ctx s s'
      M.Along := by
  refine .look (s.current.isWord "async") (s'.current.isWord "async") rfl
    rfl (.look s.scanner.peek s'.scanner.peek rfl rfl ?_)
  refine .sight (fun hH hfits hseen => ?_) (fun hseen => ?_)
    (fun hseen hH _ _ _ hrun => ?_) (fun _ => unexpected_mirrors _) <;>
    rw [Bool.and_eq_true] at hseen
  · rw [(h hH).asks (Token.asks_word "async")] at hseen
    rw [Bool.and_eq_true]
    have htwin := Lawful.twin (h hH) hfits (isSlash_of_isWord hseen.1)
    exact ⟨hseen.1, decide_eq_true (Lawful.next_of htwin
      (of_decide_eq_true hseen.2) (by decide) (by decide) (by decide)).1⟩
  · refine (advance_mirrors_word h hseen.1).seq (fun token t t' => ?_)
    exact (functionExpression_mirrors hg true _ (fun h => h.2.start)).bind
      (fun e u u' => .pure And.right
        (fun h => (h.resolve_left id).sub (fun _ hn => hn)) rfl)
  · rw [Bool.and_eq_true, (h hH).asks (Token.asks_word "async")]
    refine ⟨hseen.1, ?_⟩
    obtain ⟨_, t, hword, hrun⟩ := of_bind_run hrun
    obtain ⟨_, u, hrun, _⟩ := of_bind_run hrun
    cases hword
    obtain ⟨_, v, hrun, _⟩ := of_bind_run hrun
    obtain ⟨_, hrun⟩ := of_discard_run hrun
    rw [← State.bump_current]
    exact of_expectKeyword_run hrun

omit [M.Lawful] hg in
/-- What an export names begins with a token. -/
theorem exported_past {P : Expression → Prop} (hg : g.Sound root P) :
    Ensures root (exported g) ctx s (fun _ t => s.here < t.consumedTo) := by
  have hword {kind : TokenKind} (hk : s.current.kind = kind)
      (heof : kind ≠ .eof) {f : PUnit → Parse Export}
      (hf : ∀ t, Ensures root (f ⟨⟩) ctx t (fun _ _ => True)) :
      Ensures root (discard (liftM advance) >>= f) ctx s
        (fun _ t => s.here < t.consumedTo) :=
    (advance_past (isEof_eq_false hk heof)).past (fun _ t => hf t)
  have hvariables {kind : VarKind}
      (hkind : varKind? s.current.kind = some kind) :
      Ensures root (exportVariables g) ctx s
        (fun _ t => s.here < t.consumedTo) :=
    (variableDeclaration_ensures hg hkind).bind (fun _ _ _ hd =>
      .later hd.1.1 (terminated (fun _ _ => .pure trivial)))
  have hended (t : State) (e : Export) (action : Action Unit)
      (h : Action.Ensures root action ctx t (fun _ _ => True)) :
      Ensures root (liftM action >>= fun _ => pure e) ctx t
        (fun _ _ => True) :=
    (Ensures.lift h).bind (fun _ _ _ _ => .pure trivial)
  refine .look s.current rfl (.of_good fun _ hs => ?_)
  split
  case h_1 hk =>
    exact hword hk (by simp) (fun t =>
      (fromClause_ensures P).bind (fun _ u _ _ =>
        hended u _ _ (terminator_ensures false)))
  case h_2 =>
    have hlist : Ensures root (exportList g) ctx s
        (fun _ t => s.here < t.consumedTo) :=
      (expectPunctuator_past .lBrace).past (fun _ t =>
        hg.exportSpecifiers.bind (fun _ _ _ _ =>
          (expectPunctuator_past .rBrace).bind
            (fun _ _ _ _ => .pure trivial)))
    refine hlist.past (fun names t => .look (t.current.isWord "from") rfl ?_)
    dsimp only
    refine .ite (fun _ => ?_) (fun _ => hended t _ _ (terminator_ensures _))
    have hfrom : Ensures root (some <$> fromClause) ctx t
        (fun _ _ => True) :=
      .map ((fromClause_ensures P).mono (fun _ _ _ _ => trivial))
    exact hfrom.bind (fun _ u _ _ => hended u _ _ (terminator_ensures _))
  case h_3 hk =>
    refine hword hk (by simp) (fun t => ?_)
    refine .look (t.current.isKeyword .kwClass) rfl
      (.ite (fun _ => ?_) (fun _ => ?_))
    · exact (classDefinition_ensures hg true).bind (fun _ u _ _ =>
        hended u _ _ declarationEnd_ensures)
    · refine (assignment_ensures hg).bind (fun e u _ _ => ?_)
      dsimp only
      exact .ite (fun _ => hended u _ _ declarationEnd_ensures)
        (fun _ => hended u _ _ (terminator_ensures false))
  case h_4 hk | h_5 hk | h_6 hk => exact hvariables (by rw [hk]; rfl)
  case h_7 =>
    refine .look s.here rfl ?_
    exact (functionExpression_ensures hg false hs.isCut_here
      (Nat.le_refl _)).bind (fun _ _ _ he => .pure he.1.1)
  case h_8 =>
    exact (classDefinition_ensures hg true).bind (fun _ _ _ hc => .pure hc.1)
  case h_9 =>
    refine .look (s.current.isWord "async") rfl (.look s.scanner.peek rfl ?_)
    refine .ite (fun h => ?_) (fun _ => unexpected_ensures _)
    refine (Ensures.lift (advance_ensures (isEof_of_isWord
      (Bool.and_eq_true_iff.1 h).1))).bind fun token t hst htook => ?_
    dsimp only
    rw [htook.start_eq]
    exact (functionExpression_ensures hg true hs.isCut_here
      hst.here_le).bind fun e u htu he => .pure (he.1.1)

/-- **What an export names is the same in both texts.** -/
theorem exported_alike : Alike M M.Fits M.Start (exported g) (exported g) := by
  intro H ctx s s' h
  refine .begin (exported_past hg.sound) h ?_
  have hfresh (hH : H ∧ M.Fresh s s') : M.Fresh s s' := hH.2
  refine .look s.current s'.current rfl rfl ?_
  refine .congr (fun hH => by rw [hH.2.kind_eq]) ?_
  have hasync : Mirrors M M.Fits (H ∧ M.Fresh s s') False M.move
      (exportAsync g) (exportAsync g) ctx s s' M.Along :=
    exportAsync_mirrors hg hfresh
  cases hkind : s.current.kind with
  | punctuator p =>
    cases p with
    | star => exact exportAll_mirrors hfresh hkind
    | lBrace => exact exportNamed_mirrors hg (fun hH => hH.2.start)
    | _ => exact hasync
  | keyword k =>
    cases k with
    | kwDefault => exact exportDefault_mirrors hg hfresh hkind
    | kwVar | kwLet | kwConst =>
      exact exportVariables_mirrors hg hfresh (by rw [hkind]; rfl)
    | kwFunction =>
      refine .here hfresh ?_
      exact (functionExpression_mirrors hg false _
        (fun hH => hH.2.start)).bind (fun e t t' => .pure And.right
          (fun h => (h.resolve_left id).sub (fun _ hn => hn)) rfl)
    | kwClass =>
      exact (classDefinition_alike hg true (fun hH => hH.2.start)).bind
        (fun c t t' => .pure And.right (fun h =>
          ⟨_, List.mem_singleton_self _,
            (h.resolve_left id).node (fun _ hc => hc)⟩) rfl)
    | _ => exact hasync
  | _ => exact hasync

/-- **An export is the same in both texts.** -/
theorem exportStatement_mirrors {k : Keyword} (h : H → M.Fresh s s')
    (hkind : s.current.kind = .keyword k) :
    Mirrors M M.Fits H False M.move (exportStatement g) (exportStatement g)
      ctx s s' M.Along := by
  refine (word_mirrors h hkind).seq (fun token t t' => ?_)
  refine (exported_alike hg (fun h => h.2.start)).bind (fun e u u' => ?_)
  exact .span (fun h => h.2.consumedTo_eq) (.pure And.right
    (fun h => (h.resolve_left id).statement (fun _ hc => hc)) rfl)

end ScriptTree.Parse
