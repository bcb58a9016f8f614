import ScriptTree.Proofs.Mirror.Peek

/-!
# Functions, classes and methods in both texts
-/

namespace ScriptTree

namespace Mirror

variable {M : Mirror} {α : Type} [HasNodes α] {a : α}

/-- **A marked part makes a marked expression.** -/
theorem MarkedNode.expression {e : Expression} {c : Node}
    (h : M.MarkedNode c) (hc : c ∈ e.children) : M.Marked e :=
  ⟨.expression e, List.mem_singleton_self _, markedNode_of_child hc h⟩

theorem Marked.expression {e : Expression} (h : M.Marked a)
    (hsub : ∀ c ∈ HasNodes.nodes a, c ∈ e.children) : M.Marked e :=
  ⟨.expression e, List.mem_singleton_self _, h.node hsub⟩

/-- **A marked part makes a marked statement.** -/
theorem Marked.statement {s : Statement} (h : M.Marked a)
    (hsub : ∀ c ∈ HasNodes.nodes a, c ∈ s.children) : M.Marked s :=
  ⟨.statement s, List.mem_singleton_self _, h.node hsub⟩

end Mirror

namespace Parse

open ScriptTree.Action Mirror

variable {M : Mirror} {E : State → Prop} {H B : Prop}
  {root ctx : Context} {s s' : State} [M.Lawful]

/-! ## Names -/

theorem parameterNamesTurn_mirrors (found : List Identifier)
    (s s' : State) :
    Mirrors M M.Fits (M.Along s s') (M.Marked found) M.move
      (parameterNamesTurn found) (parameterNamesTurn (M.move found)) ctx s
      s' M.Along := by
  refine (identifier_mirrors Along.start).seq (fun id t t' => ?_)
  refine (eat_mirrors (by decide) And.right).seq (fun more u u' => ?_)
  refine .ite (fun _ => Iff.rfl)
    (fun _ => .pure And.right (fun h => marked_cons.2 (.inr h)) rfl)
    (fun _ => .pure And.right (fun h => (not_marked _ h).elim) ?_)
  exact congrArg Turn.done (List.map_reverse (l := id :: found)).symm

theorem parameterNames_alike :
    Alike M M.Fits M.Along parameterNames parameterNames := by
  intro H ctx s s' h
  have hturns := Nat.lt_succ_self (byteLength M.text)
  have hturns' := Nat.lt_succ_self (byteLength M.other)
  have hclose {H : Prop} (params : List Identifier) {t t' : State}
      (h : H → M.Along t t') :
      Mirrors M M.Fits H False M.move
        (discard (expectPunctuator .rParen) >>= fun _ => pure params)
        (discard (expectPunctuator .rParen) >>= fun _ =>
          pure (M.move params)) ctx t t' M.Along :=
    (expectPunctuator_mirrors (by decide)
      (fun hH => (h hH).start)).discard.seq
      (fun _ _ _ => .pure And.right False.elim rfl)
  refine .look (s.current.isPunctuator .rParen)
    (s'.current.isPunctuator .rParen) rfl rfl ?_
  refine .test (Token.asks_punctuator .rParen) (fun hH => (h hH).start)
    (fun _ => ?_) (fun _ => ?_) (fun _ => ?_)
  · simp only [pure_bind]
    exact (expectPunctuator_past .rParen).past (fun _ _ => .pure trivial)
  · simp only [pure_bind]
    exact hclose [] (fun hH => h hH.1)
  · refine .look ctx (M.reflect ctx) rfl rfl ?_
    have hrun := Loop.run_mirrors ctx parameterNamesTurn_mirrors
      (parameterNamesLoop_proceeds hturns)
      (parameterNamesLoop_proceeds hturns') [] s s'
    refine Mirrors.seq (hrun.mono h False.elim (fun _ => id)
      (fun _ _ => id)) (fun params t t' => ?_)
    exact hclose params And.right

theorem optionalIdentifier_alike [M.Backward E] :
    Alike M E M.Along optionalIdentifier optionalIdentifier := by
  intro H ctx s s' h
  refine .look (decide (s.current.kind = .identifier))
    (decide (s'.current.kind = .identifier)) rfl rfl ?_
  refine .test (c := fun t => t.kind = .identifier)
    (Token.asks_kind (fun h => nomatch h)) (fun hH => (h hH).start)
    (fun _ => ?_) (fun _ => ?_) (fun _ => .pure h False.elim rfl)
  · exact (identifier_ensures (fun _ => True)).bind
      (fun _ _ _ h => .pure h.1)
  · exact (identifier_mirrors (fun hH => hH.2.start)).seq
      (fun _ _ _ => .pure And.right False.elim rfl)

/-! ## Functions -/

variable {g : Grammar} (hg : g.Mirrored M)

include hg

theorem functionExpression_mirrors (isAsync : Bool) (start : Nat)
    (h : H → M.Start s s') :
    Mirrors M M.Fits H False M.move (functionExpression g isAsync start)
      (functionExpression g isAsync (M.place start)) ctx s s' M.Along := by
  refine (expectKeyword_mirrors .kwFunction h).discard.seq
    (fun _ t t' => ?_)
  refine (eat_mirrors (by decide) And.right).seq
    (fun isGenerator u u' => ?_)
  refine (optionalIdentifier_alike And.right).seq (fun id? v v' => ?_)
  refine (parameterList_alike hg (fun h => h.2.start)).seq
    (fun params w w' => ?_)
  refine (hg.block (fun h => h.2.start)).bind (fun body x x' => ?_)
  refine .span (fun h => h.2.consumedTo_eq) (.pure And.right ?_ ?_)
  · intro h
    have hf : M.MarkedNode (.function
        ⟨id?, params, body, isAsync, x.spanFrom start⟩) :=
      (h.resolve_left id).node (by simp [HasNodes.nodes, Node.children])
    cases isGenerator <;> exact hf.expression (List.mem_singleton_self _)
  · cases isGenerator <;> rfl

/-! ## Methods -/

omit hg

theorem methodName_alike [M.Backward E] :
    Alike M E M.Start methodName methodName := by
  intro H ctx s s' h
  refine .look s.current s'.current rfl rfl ?_
  refine .test Token.asks_namesProperty h (fun _ => ?_) (fun _ => ?_)
    (fun _ => unexpected_mirrors _)
  · exact (propertyName_ensures (fun _ => True)).mono (fun _ _ _ h => h.1)
  · exact propertyName_mirrors (fun hH => hH.2.start)

/-- Parameters begin with a parenthesis. -/
theorem parameterList_past {P : Expression → Prop}
    (hg : g.Sound root P) :
    Ensures root (parameterList g) ctx s
      (fun _ t => s.here < t.consumedTo) :=
  (expectPunctuator_past .lParen).past
    (fun _ _ => hg.parameters.mono (fun _ _ _ _ => trivial))

/-- What follows the name of a method begins with a parenthesis. -/
theorem methodRest_past {P : Expression → Prop} (hg : g.Sound root P)
    {f : List Identifier → Block → Span → Method} {start : Nat} :
    Ensures root (do
      let params ← parameterList g
      let body ← g.block
      return f params body (← spanFrom start)) ctx s
      (fun _ t => s.here < t.consumedTo) :=
  (parameterList_past hg).past (fun _ _ => hg.block.bind
    (fun _ t _ _ => .look (t.spanFrom start) rfl (.pure trivial)))

/-- A method has a name and parameters. -/
theorem methodNamed_twice {P : Expression → Prop} (hg : g.Sound root P)
    {f : Identifier → List Identifier → Block → Span → Method}
    {start : Nat} :
    Ensures root (do
      let key ← methodName
      let params ← parameterList g
      let body ← g.block
      return f key params body (← spanFrom start)) ctx s
      (fun _ t => s.Twice root t) :=
  Ensures.twice ((methodName_ensures P).mono (fun _ _ _ h => h.1))
    (fun _ _ => methodRest_past hg)

theorem method_twice {P : Expression → Prop} (hg : g.Sound root P)
    (isStatic : Bool) (start : Nat) :
    Ensures root (method g isStatic start) ctx s
      (fun _ t => s.Twice root t) :=
  .twiceLater (.lift (modifier_ensures "async")) (fun _ _ =>
    .twiceLater (.lift methodKind_ensures) (fun _ _ =>
      methodNamed_twice hg))

include hg

theorem method_mirrors (isStatic : Bool) (start : Nat)
    (h : H → M.Along s s') :
    Mirrors M M.Fits H False M.move (method g isStatic start)
      (method g isStatic (M.place start)) ctx s s' M.Along := by
  refine (modifier_mirrors "async" h).bindBeyond (fun _ _ => ?_)
    (fun isAsync t t' => ?_)
  · exact .twiceLater (.lift methodKind_ensures)
      (fun _ _ => methodNamed_twice hg.sound)
  refine (methodKind_mirrors And.right).bindBeyond
    (fun _ _ => methodNamed_twice hg.sound) (fun kind u u' => ?_)
  refine (methodName_alike (fun h => h.2.start)).seq (fun key v v' => ?_)
  refine (parameterList_alike hg (fun h => h.2.start)).seq
    (fun params w w' => ?_)
  refine (hg.block (fun h => h.2.start)).bind (fun body x x' => ?_)
  refine .span (fun h => h.2.consumedTo_eq) (.pure And.right ?_ rfl)
  rintro (((h | h) | h) | h)
  · exact h.elim
  · exact (not_marked _ h).elim
  · exact (not_marked _ h).elim
  · exact ⟨_, List.mem_singleton_self _,
      h.node (by simp [HasNodes.nodes, Node.children])⟩

/-- One turn of the loop over the methods, behind which the brace is
read. -/
theorem classMethodsTurn_mirrors (found : List Method) (s s' : State) :
    Mirrors M M.More (M.Along s s') (M.Marked found) M.move
      (classMethodsTurn g found) (classMethodsTurn g (M.move found)) ctx s
      s' M.Along := by
  refine .of_back (.look s.current s'.current rfl rfl ?_)
  refine .ite (fun h => ?_) (fun _ => ?_) (fun _ => ?_)
  · rw [(h.1.inside h.2).current_eq]
    rfl
  · exact .pure And.left marked_reverse.2
      (congrArg Turn.done List.map_reverse.symm)
  refine .here (fun h => (h.1.inside h.2).toFresh) ?_
  refine (modifier_mirrors "static" And.left).bindBeyond (fun _ _ => ?_)
    (fun isStatic t t' => ?_)
  · exact (method_twice hg.sound _ _).bind (fun _ u _ htwice =>
      (Ensures.lift (eat_ensures .semicolon).discard).bind
        (fun _ v huv _ => .pure (htwice.later huv)))
  refine (method_mirrors hg isStatic s.here And.right).more.bind
    (fun m u u' => ?_)
  refine (eat_mirrors (by decide) And.right).discard.seq
    (fun _ v v' => .pure And.right ?_ rfl)
  exact fun h => marked_cons.2 (h.symm.imp_right
    (fun h => h.resolve_right (not_marked _)))

theorem classMethods_alike :
    Alike M M.More M.Along (classMethods g) (classMethods g) := by
  intro H ctx s s' h
  have hturns := Nat.lt_succ_self (byteLength M.text)
  have hturns' := Nat.lt_succ_self (byteLength M.other)
  refine .look ctx (M.reflect ctx) rfl rfl ?_
  have hrun := Loop.run_mirrors ctx (classMethodsTurn_mirrors hg)
    (classMethodsLoop_proceeds hturns hg.sound)
    (classMethodsLoop_proceeds hturns' hg.sound') [] s s'
  exact hrun.mono h False.elim (fun _ => id) (fun _ _ => id)

/-! ## Classes -/

omit hg

theorem className_alike [M.Backward E] (mayBeUnnamed : Bool) :
    Alike M E M.Along (className mayBeUnnamed) (className mayBeUnnamed) := by
  intro H ctx s s' h
  refine .ite (fun _ => Iff.rfl) (fun _ => optionalIdentifier_alike h)
    (fun _ => ?_)
  exact (identifier_mirrors (fun hH => (h hH).start)).seq
    (fun _ _ _ => .pure And.right False.elim rfl)

include hg

theorem classParent_alike :
    Alike M M.Fits M.Along (classParent g) (classParent g) := by
  intro H ctx s s' h
  refine .look (s.current.isKeyword .kwExtends)
    (s'.current.isKeyword .kwExtends) rfl rfl ?_
  refine .test (Token.asks_keyword .kwExtends) (fun hH => (h hH).start)
    (fun hword => ?_) (fun hword => ?_) (fun _ => .pure h False.elim rfl)
  · exact (advance_past (isEof_of_isKeyword hword)).past (fun _ _ =>
      (hg.sound.expression .call).bind (fun _ _ _ _ => .pure trivial))
  · refine (advance_mirrors_kind And.right (of_decide_eq_true hword)
      (fun h => nomatch h) (fun h => nomatch h)).discard.seq
      (fun _ t t' => ?_)
    exact (hg.expression .call (fun h => h.2.start)).bind
      (fun e u u' => .pure And.right
        (fun h => marked_some.2 (h.resolve_left id)) rfl)

theorem classDefinition_alike (mayBeUnnamed : Bool) :
    Alike M M.Fits M.Start (classDefinition g mayBeUnnamed)
      (classDefinition g mayBeUnnamed) := by
  intro H ctx s s' h
  refine (expectKeyword_mirrors .kwClass h).seq (fun opening t t' => ?_)
  refine (className_alike mayBeUnnamed And.right).seq
    (fun id? u u' => ?_)
  refine (classParent_alike hg And.right).bind (fun parent? v v' => ?_)
  refine (expectPunctuator_mirrors (by decide)
    (fun h => h.2.start)).discard.seq (fun _ w w' => ?_)
  refine (hg.methods And.right).bindMore (fun _ _ => ?_)
    (fun methods x x' => ?_)
  · exact (expectPunctuator_past .rBrace).past
      (fun _ t => .look (t.spanFrom _) rfl (.pure trivial))
  refine (expectPunctuator_mirrors (by decide)
    (fun h => h.2.start)).discard.seq (fun _ y y' => ?_)
  refine .span (fun h => h.2.consumedTo_eq) (.pure And.right ?_ ?_)
  · refine fun h => ⟨_, List.mem_singleton_self _, ?_⟩
    rcases h with (h | h) | h
    · exact h.elim
    · exact h.node (fun c hc => List.mem_append_left _
        (List.mem_append_right _ (by simpa using hc)))
    · exact h.node (fun c hc => List.mem_append_right _
        (by simpa using hc))
  · show _ = Class.mk _ (moveExpression? _ _) (moveMethods _ _) _
    rw [moveExpression?_eq, moveMethods_eq]
    rfl

end Parse

end ScriptTree
