import ScriptTree.Proofs.Account.Expression
import ScriptTree.Proofs.Derive.Operand

/-!
# How expressions are derived

A line break that matters ends an expression. So wherever an operator may
follow, and line breaks matter, it is asked whether one stands before the
current token.
-/

namespace ScriptTree.Parse

open ScriptTree.Action State

variable {root ctx : Context} {R : Replay root} {K : Set Mark} {r s : State}
  {g : Grammar} {left : Expression}

/-! ## Targets -/

/-- **A target** is what it was, where a run ends well. -/
theorem target_derives {test : Bool} {error : ParseError} {e : Expression}
    (hfounded : error.Founded root s)
    (he : R.Yields ctx K r [.expression e] s) :
    Derives R K (liftM (if test then pure e else refuse error e)) ctx s
      (fun K e' t => R.Yields ctx K r [.expression e'] t) := by
  rw [lift_ite]
  refine .ite (fun _ => .pure he) (fun _ => .unfit ?_
    (fun _ _ hst hunfit => .of_unfit (he.acts.trans hst) hunfit))
  exact .lift ((refuse_accounts e hfounded).mono
    (fun _ _ _ hclean hquiet => hclean hquiet.toClean))

theorem assignmentTarget_derives {e : Expression}
    (hframed : e.span.Framed root.source)
    (he : R.Yields ctx K r [.expression e] s) :
    Derives R K (liftM (assignmentTarget e)) ctx s
      (fun K e' t => R.Yields ctx K r [.expression e'] t) := by
  have hmessage : ¬IsMismatch "invalid assignment target" :=
    fun hm => absurd hm.head (by decide)
  exact target_derives
    (.of_not_isMismatch (e := .invalidAssignmentTarget _) hframed hmessage)
    he

theorem deleteTarget_derives {e : Expression}
    (hframed : e.span.Framed root.source)
    (he : R.Yields ctx K r [.expression e] s) :
    Derives R K (liftM (deleteTarget e)) ctx s
      (fun K e' t => R.Yields ctx K r [.expression e'] t) := by
  have hmessage : ¬IsMismatch
      "'delete' operand must be a member or subscript expression" :=
    fun hm => absurd hm.head (by decide)
  exact target_derives
    (.of_not_isMismatch (e := .invalidDeleteTarget _) hframed hmessage) he

/-! ## Operators before an operand -/

/-- **A sign before an operand** has been read before the operand. -/
theorem applyBefore_derives (token : Token) {argument : Expression}
    (hframed : argument.span.Framed root.source)
    (hargument : R.Yields ctx K r [.expression argument] s) :
    Derives R K (applyBefore token argument) ctx s
      (fun K e t => R.Yields ctx K r [.expression e] t) := by
  unfold applyBefore
  dsimp only
  split
  case h_3 =>
    exact (deleteTarget_derives hframed hargument).bind
      fun K e t _ he => .pure (.wrap he rfl (fun _ => rfl) rfl rfl)
  case h_12 => exact .throw
  all_goals exact .pure (.wrap hargument rfl (fun _ => rfl) rfl rfl)

variable (hg : g.Derives R)

include hg

theorem operand_derives :
    Derives R ∅ (operand g) ctx s
      (fun K e t => R.Yields ctx K s [.expression e] t) := by
  refine .current (fun _ => rfl) (.askContext rfl ?_)
  split
  · rename_i info hinfo
    refine .ite (fun _ => ?_) (fun _ => primary_derives hg)
    have heof : s.current.isEof = false :=
      (Token.isSilent_of_find? hinfo).isEof_eq_false
    refine .pass (.refl ctx) heof fun hF => ?_
    refine (((hg.expression _).after hF).and_ensures
      (hg.gathers.sound.expression _)).bind fun K argument u _ h => ?_
    exact applyBefore_derives _ (framed_of_reads h.2) h.1
  · exact primary_derives hg

/-! ## Operators behind an operand -/

theorem callArguments_derives :
    Derives R ∅ (callArguments g) ctx s
      (fun K es t => R.Yields ctx K s (es.map .expression) t) := by
  refine (separated_derives (fun _ => assignment_derives hg)
    (fun _ => assignment_accounts hg.gathers) _ _).bind
    fun K es t _ hes => ?_
  rw [← List.map_eq_flatMap] at hes
  exact .skip (expectPunctuator_takes .rParen) hes fun hF => .pure hF

theorem applyAfter_derives (token : Token)
    (hleft : R.Yields ctx K r [.expression left] s) :
    Derives R K (applyAfter g left token) ctx s
      (fun K e t => R.Yields ctx K r [.expression e] t) := by
  unfold applyAfter
  dsimp only
  split
  · exact .pure (.wrap hleft rfl (fun _ => rfl) rfl rfl)
  · exact .pure (.wrap hleft rfl (fun _ => rfl) rfl rfl)
  · refine (Derives.freed (hg.arguments.mono fun _ _ _ _ h => h.out)
      (hg.gathers.sound.arguments.mono fun _ _ _ h => h.lies) hleft).bind
      fun K arguments t _ hread => ?_
    obtain ⟨hF, hfree⟩ := hread
    refine .span (.pure (.wrapFreed hF rfl (fun _ => rfl) rfl ?_))
    exact List.forall_mem_map.2 (fun e he => hfree _ (List.mem_map_of_mem he))
  · exact (propertyName_derives.after hleft).bind fun K property t _ hF =>
      .pure (.wrap hF rfl (fun _ => rfl) rfl rfl)
  · refine (Derives.freed ((hg.bracketed _ _).mono fun _ _ _ _ h => h.out)
      ((hg.gathers.sound.bracketed _ _).mono fun _ _ _ h => h.lies)
      hleft).bind fun K index t _ hread => ?_
    obtain ⟨hF, hfree⟩ := hread
    refine .skip (expectPunctuator_takes .rBracket) hF fun hF => ?_
    refine .span (.pure (.wrapFreed hF rfl (fun _ => rfl) rfl ?_))
    exact List.forall_mem_singleton.2 (hfree _ (List.mem_singleton_self _))
  · exact .throw

theorem binaryOf_derives (operator : BinaryOperator) (right : Precedence)
    (hleft : R.Yields ctx K r [.expression left] s) :
    Derives R K (do
      let second ← g.expression right
      pure (binaryOf operator left second)) ctx s
      (fun K e t => R.Yields ctx K r [.expression e] t) :=
  ((hg.expression right).after hleft).bind fun _ _ _ _ hF =>
    .pure (.wrap hF rfl (fun _ => rfl) rfl rfl)

/-- **An assignment of any kind.** -/
theorem assign_derives (mk : Expression → Expression → Span → Expression)
    (hmk : ∀ target value span,
      (Node.expression (mk target value span)).children
          = [.expression target, .expression value]
        ∧ (Node.expression (mk target value span)).isBracketed = false
        ∧ (Node.expression (mk target value span)).freed = [])
    (right : Precedence) (hframed : left.span.Framed root.source)
    (hleft : R.Yields ctx K r [.expression left] s) :
    Derives R K (do
      let target ← liftM (assignmentTarget left)
      let value ← g.expression right
      pure (mk target value ⟨left.span.start, value.span.stop⟩)) ctx s
      (fun K e t => R.Yields ctx K r [.expression e] t) := by
  refine (assignmentTarget_derives hframed hleft).bind
    fun K target t _ hF => ?_
  refine ((hg.expression right).after hF).bind
    fun K value u _ hF => .pure ?_
  obtain ⟨hchildren, hbracketed, hfreed⟩ :=
    hmk target value ⟨left.span.start, value.span.stop⟩
  refine .wrap ?_ hbracketed (fun _ => rfl) rfl hfreed
  rw [hchildren]
  exact hF

theorem applyMark_derives (token : Token) (p : Punctuator)
    (right : Precedence) (hframed : left.span.Framed root.source)
    (hleft : R.Yields ctx K r [.expression left] s) :
    Derives R K (applyMark g left token p right) ctx s
      (fun K e t => R.Yields ctx K r [.expression e] t) := by
  unfold applyMark
  dsimp only
  split
  · exact ((hg.expression right).after hleft).bind
      fun K second t _ hF => .pure (.wrap hF rfl (fun _ => rfl) rfl rfl)
  · exact assign_derives hg .assignment (fun _ _ _ => ⟨rfl, rfl, rfl⟩) right
      hframed hleft
  · refine (Derives.freed (hg.consequent.mono fun _ _ _ _ h => h.out)
      (hg.gathers.sound.consequent.mono fun _ _ _ h => h.lies) hleft).bind
      fun K consequent t _ hread => ?_
    obtain ⟨hF, hfree⟩ := hread
    refine .skip (expectPunctuator_takes .colon) hF fun hF => ?_
    refine ((hg.expression right).after hF).grows.bind
      fun K' alternate u _ hread => .pure ?_
    obtain ⟨hK, hF⟩ := hread
    exact .wrapFreed hF rfl (fun _ => rfl) rfl (List.forall_mem_singleton.2
      ((hfree _ (List.mem_singleton_self _)).mono hK))
  · split
    · exact assign_derives hg (.compoundAssignment _)
        (fun _ _ _ => ⟨rfl, rfl, rfl⟩) right hframed hleft
    · split
      · exact binaryOf_derives hg _ right hleft
      · exact .throw

/-- **An operator folded onto what was read before it.** -/
theorem applyOperator_derives (info : OperatorInfo)
    (heof : s.current.isEof = false)
    (hframed : left.span.Framed root.source)
    (hleft : R.Yields ctx K r [.expression left] s) :
    Derives R K (applyOperator g left info) ctx s
      (fun K e t => R.Yields ctx K r [.expression e] t) := by
  have hleft := hleft.bump heof
  refine .advance heof (fun _ => rfl) (.ite (fun _ => ?_) (fun _ => ?_))
  · exact applyAfter_derives hg _ hleft
  split
  · exact applyMark_derives hg _ _ _ hframed hleft
  · exact binaryOf_derives hg _ _ hleft
  · exact binaryOf_derives hg _ _ hleft

/-! ## The fold -/

omit hg in
/-- **Where an operator may follow** a line break is asked for, if it
matters. -/
theorem operatorAt?_derives (min : Precedence)
    {f : Option OperatorInfo → Parse Expression}
    {Q : Set Mark → Expression → State → Prop} {F : List Node}
    (hF : R.Yields ctx K r F s)
    (hf : ∀ K, R.Yields ctx K r F s →
      Derives R K (f (s.operator? ctx min)) ctx s Q) :
    Derives R K (liftM (operatorAt? min) >>= f) ctx s Q := by
  have hsame : ∀ s', R.Beside s s' →
      (s'.newlineBefore && ctx.newlinesMatter)
        = (s.newlineBefore && ctx.newlinesMatter) →
      s'.operator? (R.reflect ctx) min = s.operator? ctx min := by
    intro s' hs' hbreak
    have hagrees := R.current hs'
    unfold operator?
    show (if (s'.newlineBefore && ctx.newlinesMatter) = true then none
      else if (s'.current.isKeyword .kwIn && !ctx.allowIn) = true then none
      else (ctx.table.afterOperand? s'.current.kind).filter _) = _
    rw [hbreak, hagrees.isKeyword_eq, hagrees.kind_eq]
  cases hmatter : ctx.newlinesMatter with
  | true =>
    refine .consult (liftM_operatorAt?_run min ctx s)
      (fun _ hclear s' hs' => ?_)
      (hf _ (hF.asks hmatter))
    rw [liftM_operatorAt?_run,
      hsame s' hs' (by rw [R.newlineBefore_eq hs' hclear])]
  | false =>
    refine .look (liftM_operatorAt?_run min ctx s) (fun _ s' hs' => ?_)
      (hf _ hF)
    rw [liftM_operatorAt?_run,
      hsame s' hs' (by rw [hmatter, Bool.and_false, Bool.and_false])]

/-- **The fold** adds to what its operand began with. -/
theorem foldOperators_derives (min : Precedence) (turns : Nat) {b : Nat}
    (hreads : State.Reads (As root (fun _ => True) .expression) b left s)
    (hleft : R.Yields ctx K r [.expression left] s) :
    Derives R K (foldOperators g min turns left) ctx s
      (fun K e t => R.Yields ctx K r [.expression e] t) := by
  induction turns generalizing left s K with
  | zero => exact .pure hleft
  | succ turns ih =>
    refine operatorAt?_derives min hleft fun K hleft => ?_
    cases hfound : s.operator? ctx min with
    | none => exact .pure hleft
    | some info =>
      have heof := isEof_of_operator? hfound
      refine ((applyOperator_derives hg info heof (framed_of_reads hreads)
        hleft).and_ensures (applyOperator_ensures hg.gathers.sound info heof
          hreads)).bind fun K e t _ he => ?_
      exact ih (he.2.2 trivial) he.1

/-- **An expression** comes out of its run. -/
theorem expressionFrom_derives (min : Precedence) :
    Derives R ∅ (expressionFrom g min) ctx s
      (fun K e t => R.Yields ctx K s [.expression e] t) := by
  refine ((operand_derives hg).and_ensures
    (operand_ensures hg.gathers.sound)).bind fun K e t _ he => ?_
  exact .askContext rfl
    (foldOperators_derives hg min _ (he.2 trivial) he.1)

end ScriptTree.Parse
