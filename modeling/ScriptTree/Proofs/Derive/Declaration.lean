import ScriptTree.Proofs.Account.Declaration
import ScriptTree.Proofs.Derive.Expression

/-!
# How declarations and the ends of statements are derived

A statement that has to be ended asks for a line break, unless there is a
semicolon. Where there is neither, it may still end with its list; if it
does not, the run does not end well, be the problem that is taken down an
error or a warning.
-/

namespace ScriptTree

variable {root ctx : Context} {R : Replay root} {K : Set Mark} {r s t : State}
  {F : List Node}

/-- **An expression that comes out of a run in which nothing has gone wrong**
is no error. -/
theorem State.Gathers.isError_eq_false {e : Expression}
    (h : s.Gathers root [.expression e] t) (hclean : t.Clean root) :
    e.isError = false := by
  obtain ⟨ts, _, hspent⟩ := h.spent hclean
  rw [List.flatMap_singleton] at hspent
  have hflawless := Node.flawless_of_leaves hspent.isError_eq_false
  cases e with
  | error node =>
    have hchild := (Node.flawless_iff.1 hflawless).2 (.error node)
      (List.mem_singleton_self _)
    exact nomatch (Node.flawless_iff.1 hchild).1
  | _ => rfl

namespace Parse

open ScriptTree.Action State

/-! ## The end of a statement -/

/-- **A missing terminator** ends no run well. -/
theorem reportMissingTerminator_not_quiet (atEnd : Bool) :
    Action.Accounts root (reportMissingTerminator atEnd) ctx s
      (fun _ t => ¬t.Quiet root) := by
  intro hctx hs
  refine ⟨(reportMissingTerminator_accounts atEnd hctx hs).1, ?_⟩
  show ¬((ite _ _ _ : Action Unit) ctx s).2.Quiet root
  split
  · rename_i hlexical
    intro hquiet
    exact (ParseError.ofToken_founded hs.sound List.mem_cons_self
      _).not_clean hs.sound hlexical hquiet.toClean
  · show ¬(s.report ctx _ _ _ _).Quiet root
    rw [report_congr hctx]
    exact not_quiet_report _ _ _ _

/-- A line break is asked for, and it matters. -/
theorem newlineBefore_derives {β : Type} {f : Bool → Parse β}
    {Q : Set Mark → β → State → Prop} (hmatter : ctx.newlinesMatter = true)
    (hF : R.Yields ctx K r F s)
    (hf : ∀ K, R.Yields ctx K r F s →
      Derives R K (f s.newlineBefore) ctx s Q) :
    Derives R K (liftM newlineBefore >>= f) ctx s Q := by
  refine .consult rfl (fun _ hclear s' hs' => ?_)
    (hf _ (hF.asks hmatter))
  show (Except.ok s'.newlineBefore, s') = _
  rw [R.newlineBefore_eq hs' hclear]

theorem atListEnd_eq_of_beside {s' : State} (h : R.Beside s s') :
    s'.atListEnd (R.reflect ctx) = s.atListEnd ctx := by
  rw [atListEnd_eq, atListEnd_eq]
  exact (R.current h).closes_eq _

/-- **The end of a statement.** -/
theorem terminator_derives (mayTrail : Bool)
    (hmatter : ctx.newlinesMatter = true) (hF : R.Yields ctx K r F s) :
    Derives R K (liftM (terminator mayTrail)) ctx s (fun K _ t =>
      R.Yields ctx K r F t
        ∧ (R.Fits t → t.EndsStatement ctx.listEnd mayTrail)) := by
  unfold terminator
  simp only [lift_bind, lift_ite]
  refine (eat_derives (K := K) (Q := fun K b t => R.Yields ctx K r F t
    ∧ (b = true → ∃ token ∈ t.taken.head?,
      token.isPunctuator .semicolon = true)) (fun h => ?_)
    (fun _ => ⟨hF, fun h => nomatch h⟩)).bind fun K b t _ ⟨hF, hmark⟩ => ?_
  · refine ⟨hF.bump (isEof_of_isPunctuator h), fun _ => ?_⟩
    exact ⟨s.current, head?_bump root s, h⟩
  refine .ite (fun hb => .pure ⟨hF, fun _ => .inl (hmark hb)⟩) (fun _ => ?_)
  refine newlineBefore_derives hmatter hF fun K hF => ?_
  refine .ite (fun hbreak => .pure ⟨hF, fun _ => .inr (.inl hbreak)⟩)
    (fun _ => ?_)
  refine .look (a := t.atListEnd ctx) rfl (fun _ s' hs' => ?_) ?_
  · show (Except.ok (s'.atListEnd _), s') = _
    rw [atListEnd_eq_of_beside hs']
  refine .askContext rfl (.ite (fun h => .pure ⟨hF, fun _ => .inr (.inr ?_)⟩)
    (fun _ => ?_))
  · rw [atListEnd_eq] at h
    simp only [Bool.and_eq_true] at h
    exact h.1
  · refine .unfit (.lift (reportMissingTerminator_not_quiet _))
      (fun _ u htu hunfit => ⟨.of_unfit (hF.acts.trans htu) hunfit, ?_⟩)
    exact fun hfits => absurd hfits hunfit

theorem declarationEnd_derives (hmatter : ctx.newlinesMatter = true)
    (hF : R.Yields ctx K r F s) :
    Derives R K (liftM declarationEnd) ctx s
      (fun K _ t => R.Yields ctx K r F t) := by
  unfold declarationEnd
  simp only [lift_bind, lift_ite]
  exact newlineBefore_derives hmatter hF fun K hF =>
    .ite (fun _ => .pure hF) (fun _ => discard_eat_yields _ hF)

/-- **The end of an expression statement.** Where a run ends well the
expression is no error. -/
theorem expressionEnd_derives {e : Expression}
    (hmatter : ctx.newlinesMatter = true) (hF : R.Yields ctx K r F s)
    (herror : R.Fits s → e.isError = false) :
    Derives R K (liftM (expressionEnd e)) ctx s (fun K _ t =>
      R.Yields ctx K r F t ∧ (R.Fits t → e.isDeclarationLike = false →
        t.EndsStatement ctx.listEnd true)) := by
  unfold expressionEnd
  simp only [lift_ite]
  refine .ite (fun h => ?_) (fun _ => .ite (fun h => ?_) (fun _ => ?_))
  · refine (discard_eat_yields .semicolon hF).mono
      fun K _ t hst hF => ⟨hF, fun hfits => ?_⟩
    exact nomatch h.symm.trans (herror (R.fits_of_acts hst hfits))
  · refine (declarationEnd_derives hmatter hF).mono
      fun K _ t _ hF => ⟨hF, fun _ hlike => ?_⟩
    exact nomatch h.symm.trans hlike
  · exact (terminator_derives true hmatter hF).mono
      fun K _ t _ h => ⟨h.1, fun hfits _ => h.2 hfits⟩

/-- **Whether a statement ends** behind its first word. -/
theorem atStatementEnd_derives {β : Type} {f : Bool → Parse β}
    {Q : Set Mark → β → State → Prop} (hmatter : ctx.newlinesMatter = true)
    (hF : R.Yields ctx K r F s)
    (hf : ∀ K b, R.Yields ctx K r F s → Derives R K (f b) ctx s Q) :
    Derives R K (liftM atStatementEnd >>= f) ctx s Q := by
  refine .consult (a := s.current.isPunctuator .semicolon
    || s.newlineBefore || s.atListEnd ctx) rfl (fun _ hclear s' hs' => ?_)
    (hf _ _ (hF.asks hmatter))
  show (Except.ok (s'.current.isPunctuator .semicolon || s'.newlineBefore
    || s'.atListEnd _), s') = _
  rw [(R.current hs').isPunctuator_eq, R.newlineBefore_eq hs' hclear,
    atListEnd_eq_of_beside hs']

/-! ## Declarations of variables -/

/-- **Whether another binding follows.** Where none was mended, a comma
shows it. -/
theorem anotherBinding_derives {mended : Bool} (hF : R.Yields ctx K r F s)
    (hmended : R.Fits s → mended = false) :
    Derives R K (liftM (anotherBinding mended)) ctx s
      (fun K _ t => R.Yields ctx K r F t) := by
  unfold anotherBinding
  simp only [lift_bind, lift_ite]
  refine (eat_yields .comma hF).bind fun K b t hst hF => ?_
  refine .ite (fun _ => .pure hF) (fun _ => ?_)
  refine .congr (q := pure (mended && t.current.kind = .identifier
    && !t.newlineBefore)) rfl (fun hfits s' _ => ?_) (.pure hF)
  show (Except.ok (mended && s'.current.kind = .identifier
    && !s'.newlineBefore), s') = (Except.ok _, s')
  rw [hmended (R.fits_of_acts hst hfits), Bool.false_and, Bool.false_and,
    Bool.false_and, Bool.false_and]

variable {g : Grammar} (hg : g.Derives R)

include hg

theorem initializer?_derives (hF : R.Yields ctx K r F s) :
    Derives R K (initializer? g) ctx s (fun K e? t =>
      R.Yields ctx K r (F ++ e?.toList.map .expression) t) := by
  refine (eat_yields .assign hF).bind fun K _ t _ hF => ?_
  refine .ite (fun _ => ?_) (fun _ => .pure ?_)
  · exact ((assignment_derives hg).after hF).bind
      fun K e u _ hF => .pure hF
  · rwa [Option.toList_none, List.map_nil, List.append_nil]

/-- **One binding.** -/
theorem binding_derives :
    Derives R ∅ (binding g) ctx s (fun K d t =>
      R.Yields ctx K s d.parts t
        ∧ (R.Fits t → Mendable.isError d = false)) := by
  refine identifier_derives.bind fun K id t _ hF => ?_
  exact (initializer?_derives hg hF).bind fun K init? u _ hF =>
    .span (.pure ⟨hF, fun _ => rfl⟩)

theorem bindingsFrom_derives (turns : Nat) {found : List Declarator}
    (hfound : R.Yields ctx K r (found.reverse.flatMap Declarator.parts) s) :
    Derives R K (bindingsFrom g turns found) ctx s (fun K ds t =>
      R.Yields ctx K r (ds.flatMap Declarator.parts) t) := by
  induction turns generalizing s K found with
  | zero => exact .pure hfound
  | succ turns ih =>
    have hbinding : Derives R ∅ (tolerant .varBinding (binding g)) ctx s
        (fun K d t => R.Yields ctx K s d.parts t
          ∧ (R.Fits t → Mendable.isError d = false)) :=
      (binding_derives hg).tolerant (binding_accounts hg.gathers)
        (fun _ _ hst hunfit =>
          ⟨.of_unfit hst hunfit, fun hfits => absurd hfits hunfit⟩)
    refine (hbinding.afterAnd hfound).bind fun K d t _ ⟨hd, hmended⟩ => ?_
    refine (anotherBinding_derives hd.concat hmended).bind
      fun K _ u _ hF => ?_
    exact .ite (fun _ => ih hF) (fun _ => .pure hF)

/-- **The bindings of a declaration.** What node is made of them depends on
where it stands. -/
theorem variableDeclaration_derives (heof : s.current.isEof = false) :
    Derives R ∅ (variableDeclaration g) ctx s (fun K d t =>
      R.Yields ctx K s (d.declarators.flatMap Declarator.parts) t) := by
  refine .advance heof (fun _ => rfl) (.askContext rfl ?_)
  exact (bindingsFrom_derives hg _ (.token heof)).bind
    fun K declarators u _ hF => .span (.pure hF)

theorem declarationStatement_derives (hmatter : ctx.newlinesMatter = true)
    (heof : s.current.isEof = false) :
    Derives R ∅ (declarationStatement g) ctx s
      (fun K x t => R.Yields ctx K s [.statement x] t) := by
  refine .here ?_
  refine (variableDeclaration_derives hg heof).bind fun K d t _ hF => ?_
  refine (terminator_derives false hmatter hF).bind
    fun K _ u _ ⟨hF, hends⟩ => .span (.pure ?_)
  have hd : R.Yields ctx K s
      [.declaration { d with span := u.spanFrom s.here }] u :=
    .wrap hF rfl (fun _ => rfl) rfl rfl
  exact .statement hd rfl rfl (Node.freeIn_of_nil rfl)
    (fun hfits => .of_some rfl (hends hfits) rfl)

/-! ## Expressions as statements -/

theorem expressionStatement_derives (hmatter : ctx.newlinesMatter = true) :
    Derives R ∅ (expressionStatement g) ctx s
      (fun K x t => R.Yields ctx K s [.statement x] t) := by
  refine .here ?_
  have hexpression : Derives R ∅
      (tolerant .expressionStatement (expression g)) ctx s
      (fun K e t => R.Yields ctx K s [.expression e] t
        ∧ (R.Fits t → e.isError = false)) := by
    refine Derives.tolerant (((expression_derives hg).and_accounts
      (expression_accounts hg.gathers)).mono fun K e t _ h => ?_)
      (expression_accounts hg.gathers) (fun _ _ hst hunfit =>
        ⟨.of_unfit hst hunfit, fun hfits => absurd hfits hunfit⟩)
    exact ⟨h.1, fun hfits => h.2.isError_eq_false (R.quiet hfits).toClean⟩
  refine hexpression.bind fun K e t _ ⟨hF, herror⟩ => ?_
  refine (expressionEnd_derives hmatter hF herror).bind
    fun K _ u _ ⟨hF, hends⟩ => .span (.pure ?_)
  refine .statement hF rfl rfl (Node.freeIn_of_nil rfl) (fun hfits => ?_)
  cases hlike : e.isDeclarationLike with
  | true => exact .of_none (if_pos hlike)
  | false =>
    exact .of_some (if_neg (Bool.eq_false_iff.1 hlike)) (hends hfits hlike)
      rfl

end Parse

end ScriptTree
