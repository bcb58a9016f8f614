import ScriptTree.Parse.Declaration
import ScriptTree.Proofs.Mirror.Expression

/-!
# Terminators and declarations in both texts

A statement whose terminator is missing in the first text has left the
part, for that is a problem. One that ends at a line break, or as the last
of its list, may be the last of the part; in the other text nothing comes
behind it then, and at the end of a list a missing terminator is a warning
at most.
-/

namespace ScriptTree

variable {M : Mirror} {E : State → Prop} {H B : Prop}
  {root ctx ctx' : Context} {s s' t t' : State}

/-! ## The end of a statement -/

namespace Mirror

variable [M.Lawful]

/-- A warning changes nothing at the end of the part. -/
theorem Over.report_warning (h : M.Over s s') (hctx : M.image.Within ctx')
    (kind : DiagnosticKind) (message : String) (span : Span) :
    M.Over s (s'.report ctx' kind .warning message span) := by
  obtain ⟨hst, hstill⟩ := Action.report_ensures kind .warning message span
    hctx h.good'
  have haborted : s'.aborted = false := h.good'.aborted_eq Lawful.tolerant
  refine ⟨h.good, hst.good, h.done, h.clear, ?_, ?_, ?_, fun d hd => ?_⟩
  · exact (congrArg Token.isEof hstill.current_eq).trans h.isEof
  · exact hstill.newlineBefore_eq.trans h.newlineBefore_eq
  · exact hstill.consumedTo_eq.trans h.consumedTo_eq
  · rw [State.report_problems _ _ _ _ _ _ haborted, Options.added] at hd
    split at hd
    · exact h.warnings d hd
    · rcases List.mem_append.1 hd with hd | hd
      · exact h.warnings d hd
      · rw [List.mem_singleton.1 hd]
        rfl

end Mirror

namespace Parse

open ScriptTree.Action Mirror

/-- What is done about a statement without a terminator. -/
def unterminated (mayTrail : Bool) : Action Unit := do
  if ← newlineBefore then return
  else
    let atEnd ← atListEnd
    if mayTrail && atEnd && (← read).options.allowTrailingStatement then
      return
    else
      reportMissingTerminator atEnd

theorem terminator_eq (mayTrail : Bool) :
    terminator mayTrail = eat .semicolon >>= fun eaten =>
      if eaten then pure () else unterminated mayTrail := by
  refine bind_congr (fun eaten => ?_)
  cases eaten <;> rfl

theorem reportMissingTerminator_run (atEnd : Bool) (ctx : Context)
    (s : State) :
    (reportMissingTerminator atEnd ctx s).2
      = let error := ParseError.ofToken "';' or line break" s.current
        if error.isLexical then s
        else s.report ctx .structural (if atEnd then .warning else .error)
          (missingTerminatorMessage s.current error) error.span := by
  show ((ite _ _ _ : Action Unit) ctx s).2 = _
  dsimp only
  split <;> rfl

theorem unterminated_run (mayTrail : Bool) (ctx : Context) (s : State) :
    (unterminated mayTrail ctx s).2
      = if s.newlineBefore then s
        else if mayTrail && s.atListEnd ctx
          && ctx.options.allowTrailingStatement then s
        else (reportMissingTerminator (s.atListEnd ctx) ctx s).2 := by
  show ((ite _ _ _ : Action Unit) ctx s).2 = _
  split
  · rfl
  · show ((ite _ _ _ : Action Unit) ctx s).2 = _
    split <;> rfl

variable [M.Lawful]

/-- **A missing terminator** is no problem inside the part. -/
theorem unterminated_eq (mayTrail : Bool) (h : M.Start s s')
    (hctx : M.root.Within ctx)
    (hfits : M.Fits (unterminated mayTrail ctx s).2) :
    (s.newlineBefore = true ∨ (mayTrail && s.atListEnd ctx
        && ctx.options.allowTrailingStatement) = true)
      ∧ (unterminated mayTrail ctx s).2 = s := by
  rw [unterminated_run] at hfits ⊢
  split
  · exact ⟨.inl ‹_›, rfl⟩
  · split
    · exact ⟨.inr ‹_›, rfl⟩
    · rw [if_neg ‹_›, if_neg ‹_›] at hfits
      rw [reportMissingTerminator_run, if_neg (Bool.eq_false_iff.1
        (ParseError.isLexical_ofToken _ h.clear))] at hfits
      exact absurd hfits (not_fits_of_report _ _ _ _ h.aborted_eq hctx)

/-- At the end of the other text it is a warning at most. -/
theorem over_unterminated (mayTrail : Bool) (h : M.Over s s')
    (hctx : M.image.Within ctx') :
    M.Over s (Parse.unterminated mayTrail ctx' s').2 := by
  have hend : s'.atListEnd ctx' = true :=
    Bool.or_eq_true_iff.2 (.inl h.isEof)
  rw [unterminated_run]
  split
  · exact h
  · split
    · exact h
    · rw [reportMissingTerminator_run, hend]
      dsimp only
      split
      · exact h
      · exact h.report_warning hctx _ _ _

omit [M.Lawful] in
/-- Inside the part it is missing in neither text. -/
theorem inside_unterminated {mayTrail : Bool} (h : M.Inside s s')
    (hend : s.newlineBefore = true ∨ (mayTrail && s.atListEnd ctx
      && ctx.options.allowTrailingStatement) = true) :
    (Parse.unterminated mayTrail (M.reflect ctx) s').2 = s' := by
  rw [unterminated_run, h.newlineBefore_eq, h.atListEnd_eq]
  rcases hend with hend | hend
  · rw [if_pos hend]
  · split
    · rfl
    · exact if_pos hend

omit [M.Lawful] in
theorem unterminated_ensures (mayTrail : Bool) :
    Action.Ensures root (unterminated mayTrail) ctx s (fun _ _ => True) := by
  refine .look s.newlineBefore rfl (.ite (fun _ => .pure trivial)
    (fun _ => ?_))
  refine .look (s.atListEnd ctx) rfl (.look ctx rfl ?_)
  exact .ite (fun _ => .pure trivial)
    (fun _ => reportMissingTerminator_ensures _)

theorem unterminated_mirrors (mayTrail : Bool) (h : H → M.Along s s') :
    Mirrors M M.Fits H False id (liftM (unterminated mayTrail))
      (liftM (unterminated mayTrail)) ctx s s' M.Along where
  runs := .lift (unterminated_ensures mayTrail)
  marks h := h.elim
  same hH hctx hs a t hrun ht _ := by
    have htaken : (unterminated mayTrail ctx s).2 = t :=
      congrArg Prod.snd hrun
    rw [← htaken] at ht ⊢
    obtain ⟨hend, hsame⟩ := unterminated_eq mayTrail (h hH).start hctx ht
    refine ⟨(unterminated mayTrail (M.reflect ctx) s').2, rfl, ?_⟩
    rw [hsame]
    rcases (h hH).at_ with hinside | hover
    · rw [inside_unterminated hinside hend]
      exact h hH
    · exact ⟨.inr (over_unterminated mayTrail hover (M.within_image hctx)),
        (h hH).dot⟩

/-- **A statement ends in both texts.** -/
theorem terminator_mirrors (mayTrail : Bool) (h : H → M.Along s s') :
    Mirrors M M.Fits H False id (liftM (terminator mayTrail))
      (liftM (terminator mayTrail)) ctx s s' M.Along := by
  rw [terminator_eq]
  refine .lift_bind ((eat_mirrors (by decide) h).seq (fun eaten t t' => ?_))
  rw [lift_ite, lift_ite]
  refine .ite (fun _ => Iff.rfl) (fun _ => .pure And.right False.elim rfl)
    (fun _ => ?_)
  exact unterminated_mirrors mayTrail And.right

omit [M.Lawful] in
/-- At the end of its text nothing is eaten. -/
theorem over_eat_run (h : M.Over s s') (p : Punctuator)
    (ctx' : Context) : eat p ctx' s' = (false, s') := by
  rw [Action.eat_run, (Token.asks_punctuator p).eof h.isEof,
    if_neg Bool.false_ne_true]

theorem declarationEnd_mirrors (h : H → M.Along s s') :
    Mirrors M M.Fits H False id (liftM declarationEnd)
      (liftM declarationEnd) ctx s s' M.Along := by
  refine .lift_bind (.look s.newlineBefore s'.newlineBefore rfl rfl ?_)
  rw [lift_ite, lift_ite]
  cases hnewline : s.newlineBefore with
  | true =>
    refine .congr (fun hH => ?_) (.pure h False.elim rfl)
    rcases (h hH).at_ with hinside | hover
    · rw [hinside.newlineBefore_eq, hnewline, if_pos rfl]
      rfl
    · rw [hover.newlineBefore_eq, if_neg Bool.false_ne_true]
      show (Except.ok (), (eat .semicolon _ s').2) = _
      rw [over_eat_run hover]
      rfl
  | false =>
    refine .congr (fun hH => ?_) (eat_mirrors (by decide) h).discard
    have hnewline' : s'.newlineBefore = false := by
      rcases (h hH).at_ with hinside | hover
      · rw [hinside.newlineBefore_eq, hnewline]
      · exact hover.newlineBefore_eq
    rw [hnewline', if_neg Bool.false_ne_true]
    rfl

/-! ## Declarations of variables -/

variable {g : Grammar} (hg : g.Mirrored M)

include hg

theorem initializer?_alike :
    Alike M M.Fits M.Along (initializer? g) (initializer? g) := by
  intro H ctx s s' h
  refine (eat_mirrors (by decide) h).seq (fun _ t t' => ?_)
  refine .ite (fun _ => Iff.rfl) (fun _ => ?_)
    (fun _ => .pure And.right False.elim rfl)
  exact (assignment_alike hg (fun h => h.2.start)).bind (fun e _ _ =>
    .pure And.right (fun h => marked_some.2 (h.resolve_left id)) rfl)

/-- **A binding is the same in both texts.** -/
theorem binding_alike : Alike M M.Fits M.Start (binding g) (binding g) := by
  intro H ctx s s' h
  refine (identifier_mirrors h).seq (fun name t t' => ?_)
  refine (initializer?_alike hg And.right).bind (fun init? u u' => ?_)
  refine .span (fun h => h.2.consumedTo_eq) (.pure And.right ?_ ?_)
  · exact fun h => (h.resolve_left id).sub
      (fun n hn => List.mem_cons_of_mem _ (by simpa using hn))
  · show _ = Declarator.binding _ (moveExpression? _ _) _
    rw [moveExpression?_eq]
    rfl

omit hg [M.Lawful] in
/-- A binding that has been read has not been mended. -/
theorem binding_isError {d : Declarator}
    (hrun : binding g ctx s = (.ok d, t)) : Mendable.isError d = false := by
  obtain ⟨id, u, -, hrun⟩ := of_bind_run hrun
  obtain ⟨init?, v, -, hrun⟩ := of_bind_run hrun
  obtain ⟨span, w, -, hrun⟩ := of_bind_run hrun
  cases hrun
  rfl

omit hg in
/-- Where nothing has been mended, only a comma tells that another binding
follows. -/
theorem anotherBinding_mirrors {mended : Bool} (h : H → M.Along s s')
    (hmended : H → mended = false) :
    Mirrors M M.Fits H False id (liftM (anotherBinding mended))
      (liftM (anotherBinding mended)) ctx s s' M.Along where
  runs := .lift (anotherBinding_ensures mended)
  marks h := h.elim
  same hH hctx hs a t hrun ht hunmarked := by
    have heat (ctx : Context) (s : State) :
        anotherBinding false ctx s = eat .comma ctx s := by
      show (ite ((eat .comma ctx s).1 = true) _ _ : Action Bool) ctx
        (eat .comma ctx s).2 = _
      rw [eat_run]
      split <;> rfl
    have hlift (ctx : Context) (s : State) :
        (liftM (anotherBinding false) : Parse Bool) ctx s
          = (liftM (eat .comma) : Parse Bool) ctx s := by
      show (Except.ok (anotherBinding false ctx s).1,
        (anotherBinding false ctx s).2) = _
      rw [heat]
      rfl
    rw [hmended hH, hlift] at hrun
    rw [hmended hH, hlift]
    exact (eat_mirrors (by decide) h).same hH hctx hs hrun ht hunmarked

/-- **One turn of the loop over the bindings.** -/
theorem bindingsTurn_mirrors (found : List Declarator) (s s' : State) :
    Mirrors M M.Fits (M.Along s s') (M.Marked found) M.move
      (bindingsTurn g found) (bindingsTurn g (M.move found)) ctx s s'
      M.Along := by
  refine .bindTolerant (Plan.binding.abreast hg.abreast) Along.start
    (binding_alike hg Along.start) (fun _ _ => binding_isError)
    (fun d t t' => ?_)
  have hmove : Mendable.isError (M.move d) = Mendable.isError d := by
    cases d <;> rfl
  rw [hmove]
  refine (anotherBinding_mirrors (fun h => h.1.2) And.right).seq
    (fun more u u' => ?_)
  have hd : M.Marked found ∨ M.Marked d → M.Marked (d :: found) :=
    fun h => marked_cons.2 h.symm
  refine .ite (fun _ => Iff.rfl) (fun _ => .pure And.right hd rfl)
    (fun _ => .pure And.right (fun h => marked_reverse.2 (hd h)) ?_)
  exact congrArg Turn.done (List.map_reverse (l := d :: found)).symm

/-- **A declaration is the same in both texts.** -/
theorem variableDeclaration_mirrors {kind : VarKind}
    (h : H → M.Fresh s s') (hkind : varKind? s.current.kind = some kind) :
    Mirrors M M.Fits H False M.move (variableDeclaration g)
      (variableDeclaration g) ctx s s' M.Along := by
  have hturns := Nat.lt_succ_self (byteLength M.text)
  have hturns' := Nat.lt_succ_self (byteLength M.other)
  have hdot : s.current.isPunctuator .dot = false :=
    Bool.eq_false_iff.2 (fun hdot => by
      rw [show s.current.kind = _ from of_decide_eq_true hdot] at hkind
      exact nomatch hkind)
  refine (advance_mirrors_along h (isEof_of_varKind? hkind) hdot).seq
    (fun token t t' => ?_)
  refine .look ctx (M.reflect ctx) rfl rfl ?_
  refine Mirrors.bind ((Loop.run_mirrors ctx (bindingsTurn_mirrors hg)
    (bindingsLoop_proceeds hturns hg.sound)
    (bindingsLoop_proceeds hturns' hg.sound') [] t t').mono And.right
    False.elim (fun _ => id) (fun _ _ => id)) (fun ds u u' => ?_)
  refine .span (fun h => h.2.consumedTo_eq) (.pure And.right ?_ ?_)
  · exact fun h => (h.resolve_left id).sub (fun _ hn => hn)
  · show _ = VariableDeclaration.mk _ (moveDeclarators _ _) _
    rw [moveDeclarators_eq]
    rfl

theorem declarationStatement_mirrors {kind : VarKind}
    (h : H → M.Fresh s s') (hkind : varKind? s.current.kind = some kind) :
    Mirrors M M.Fits H False M.move (declarationStatement g)
      (declarationStatement g) ctx s s' M.Along := by
  refine .here h ?_
  refine (variableDeclaration_mirrors hg h hkind).bind (fun d t t' => ?_)
  refine (terminator_mirrors false And.right).seq (fun _ u u' => ?_)
  refine .span (fun h => h.2.consumedTo_eq)
    (.pure And.right ?_ (by cases d; rfl))
  rintro (h | ⟨n, hn, hmarked⟩)
  · exact h.elim
  · exact ⟨_, List.mem_singleton_self _,
      markedNode_of_child (List.mem_singleton_self _)
        (markedNode_of_child hn hmarked)⟩

/-! ## Expressions as statements -/

omit hg

theorem expressionEnd_mirrors (e : Expression) (h : H → M.Along s s') :
    Mirrors M M.Fits H False id (liftM (expressionEnd e))
      (liftM (expressionEnd (M.move e))) ctx s s' M.Along := by
  have herror : (M.move e).isError = e.isError :=
    Expression.move_isError M.place e
  have hdeclaration : (M.move e).isDeclarationLike = e.isDeclarationLike :=
    Expression.move_isDeclarationLike M.place e
  unfold expressionEnd
  rw [herror, hdeclaration]
  simp only [lift_ite]
  refine .ite (fun _ => Iff.rfl) (fun _ => ?_) (fun _ => .ite
    (fun _ => Iff.rfl) (fun _ => declarationEnd_mirrors h)
    (fun _ => terminator_mirrors true h))
  exact (eat_mirrors (by decide) h).discard

include hg

/-- **An expression as a statement** is the same in both texts. -/
theorem expressionStatement_alike :
    Alike M M.Fits M.Start (expressionStatement g)
      (expressionStatement g) := by
  intro H ctx s s' h
  refine .begin ((expressionStatement_ensures hg.sound).mono
    (fun _ _ _ h => h.1)) h (.here And.right ?_)
  refine (tolerant_mirrors .expressionStatement
    (Plan.expression.abreast hg.abreast) (fun h => h.2.start)
    (expression_alike hg (fun h => h.2.start))).bind (fun e t t' => ?_)
  refine (expressionEnd_mirrors e And.right).seq (fun _ u u' => ?_)
  exact .span (fun h => h.2.consumedTo_eq) (.pure And.right
    (fun h => (h.resolve_left id).statement (fun _ hc => hc)) rfl)

end Parse

end ScriptTree
