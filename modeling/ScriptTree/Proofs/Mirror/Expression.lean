import ScriptTree.Parse.Expression
import ScriptTree.Proofs.Mirror.Operand

/-!
# Expressions in both texts

What is folded onto an operand is the same in both texts for as long as
there are operators. Behind the last of them there is none in the first
text, and none in the other one, be it that the same token is there or
that the text is at its end. So expressions need nothing behind them to be
the same.

A dot is the one operator that may not be the last token of what it is
part of; so behind any other the parses may stand at the end of the part,
and behind a dot the property is still to come.
-/

namespace ScriptTree.Parse

open ScriptTree.Action Mirror

variable {M : Mirror} {E : State → Prop} {H B : Prop} {ctx : Context}
  {s s' t t' : State} {root : Context} [M.Lawful]

/-! ## Targets -/

/-- What is refused has left the part. -/
theorem refuse_leaves (e : Expression) {error : ParseError}
    (h : error.isLexical = false) :
    Ensures M.root (liftM (refuse error e)) ctx s (fun _ t => ¬M.Fits t) := by
  refine .of_good (fun hctx hs => .lift ?_)
  have hreport : Action.Ensures M.root (reportError .recoverable error) ctx s
      (fun _ t => ¬M.Fits t) := by
    intro _ _
    refine ⟨(reportError_ensures .recoverable error hctx hs).1, ?_⟩
    show ¬M.Fits (s.reportError ctx .recoverable error)
    rw [State.reportError, h, if_neg Bool.false_ne_true]
    exact not_fits_of_report _ _ _ _ (hs.aborted_eq Lawful.tolerant) hctx
  exact hreport.bind (fun _ t _ hleft => .look _ rfl (.pure hleft))

variable {e : Expression}

theorem assignmentTarget_mirrors (h : H → M.Along s s') :
    Mirrors M M.Fits H (M.Marked e) M.move (liftM (assignmentTarget e))
      (liftM (assignmentTarget (M.move e))) ctx s s' M.Along := by
  unfold assignmentTarget
  rw [lift_ite, lift_ite]
  refine .ite (fun _ => ?_) (fun _ => .pure h id rfl)
    (fun _ => .never (refuse_leaves e rfl))
  rw [show (M.move e).isAssignmentTarget = _ from
      Expression.move_isAssignmentTarget M.place e,
    show (M.move e).isError = _ from Expression.move_isError M.place e]

theorem deleteTarget_mirrors (h : H → M.Along s s') :
    Mirrors M M.Fits H (M.Marked e) M.move (liftM (deleteTarget e))
      (liftM (deleteTarget (M.move e))) ctx s s' M.Along := by
  unfold deleteTarget
  rw [lift_ite, lift_ite]
  refine .ite (fun _ => ?_) (fun _ => .pure h id rfl)
    (fun _ => .never (refuse_leaves e rfl))
  rw [show isDeleteTarget (M.move e) = isDeleteTarget e by cases e <;> rfl,
    show (M.move e).isError = _ from Expression.move_isError M.place e]

/-! ## Operators before an operand -/

theorem applyBefore_mirrors (token : Token) (h : H → M.Along s s') :
    Mirrors M M.Fits H (M.Marked e) M.move (applyBefore token e)
      (applyBefore (M.token token) (M.move e)) ctx s s' M.Along := by
  have hspan : (⟨(M.token token).span.start, (M.move e).span.stop⟩ : Span)
      = Span.move M.place ⟨token.span.start, e.span.stop⟩ := by
    rw [show (M.move e).span = _ from Expression.move_span M.place e]
    rfl
  have hone {mk mk' : Expression} (hchildren : mk.children = [.expression e])
      (hmk : mk' = M.move mk) :
      Mirrors M M.Fits H (M.Marked e) M.move (pure mk) (pure mk') ctx s s'
        M.Along :=
    .pure h (fun hmarked => hmarked.expression (fun _ hc => by
      rw [hchildren]
      exact hc)) hmk
  have hsame : (M.token token).kind = token.kind := rfl
  unfold applyBefore
  dsimp only
  rw [hspan, hsame]
  cases token.kind with
  | keyword k =>
    cases k with
    | kwDelete =>
      exact (deleteTarget_mirrors h).bindKept (fun r t t' =>
        .pure And.right (fun h => h.expression (fun _ hc => hc)) rfl)
    | kwNew | kwAwait | kwTypeof | kwVoid => exact hone rfl rfl
    | _ => exact .throw _
  | punctuator p =>
    cases p with
    | not | tilde | minus | plus | plusPlus | minusMinus =>
      exact hone rfl rfl
    | _ => exact .throw _
  | _ => exact .throw _

variable {g : Grammar} (hg : g.Mirrored M)

include hg

/-- **An operand with the operators in front of it** is the same in both
texts. -/
theorem operand_alike : Alike M M.Fits M.Start (operand g) (operand g) := by
  intro H ctx s s' h
  refine .begin ((operand_ensures hg.sound).mono
    (fun _ _ _ h => (h trivial).1)) h ?_
  refine .look s.current s'.current rfl rfl ?_
  refine .look ctx (M.reflect ctx) rfl rfl ?_
  refine .congr (fun hH => by rw [hH.2.current_eq]) ?_
  have hprimary : Mirrors M M.Fits (H ∧ M.Fresh s s') False M.move
      (primary g) (primary g) ctx s s' M.Along :=
    primary_alike hg (fun hH => hH.2.start)
  have hsame : (M.reflect ctx).table.beforeOperand? (M.token s.current).kind
      = ctx.table.beforeOperand? s.current.kind := rfl
  rw [hsame]
  cases hinfo : ctx.table.beforeOperand? s.current.kind with
  | none => exact hprimary
  | some info =>
    refine .ite (fun _ => Iff.rfl) (fun _ => ?_) (fun _ => hprimary)
    refine (advance_mirrors And.right
      (isEof_of_beforeOperand? hinfo)).discard.seq (fun _ t t' => ?_)
    refine (hg.expression _ (fun h => h.2.start)).bind (fun e u u' => ?_)
    exact (applyBefore_mirrors s.current And.right).mono id
      (fun h => h.resolve_left id) (fun _ => id) (fun _ _ => id)

/-! ## Operators behind an operand -/

theorem callArguments_alike :
    Alike M M.Fits M.Along (callArguments g) (callArguments g) := by
  intro H ctx s s' h
  refine (separated_mirrors (Expression.move_isError M.place)
    (Plan.assignment.abreast hg.abreast)
    (fun _ _ => assignment_alike hg Along.start) .argument .rParen
    (separatedLoop_proceeds (Nat.lt_succ_self (byteLength M.text))
      hg.sound.mend_expression (assignment_ensures hg.sound))
    (separatedLoop_proceeds (Nat.lt_succ_self (byteLength M.other))
      hg.sound'.mend_expression (assignment_ensures hg.sound'))
    h).bindMore (fun _ _ => ?_) (fun es t t' => ?_)
  · exact (expectPunctuator_past .rParen).past (fun _ _ => .pure trivial)
  · exact (expectPunctuator_mirrors (by decide)
      (fun h => h.2.start)).discard.seq (fun _ _ _ =>
        .pure And.right (fun h => h.resolve_left id) rfl)

variable {left : Expression}

/-- **A sign behind an operand.** Behind a dot a name is still to come. -/
theorem applyAfter_mirrors (token : Token) (h : H → M.At s s')
    (hend : token.isPunctuator .dot = false → H → M.Along s s') :
    Mirrors M M.Fits H (M.Marked left) M.move (applyAfter g left token)
      (applyAfter g (M.move left) (M.token token)) ctx s s' M.Along := by
  have hspan : (M.move left).span = left.span.move M.place :=
    Expression.move_span M.place left
  have hsame : (M.token token).kind = token.kind := rfl
  have hdot {p : Punctuator} (hk : token.kind = .punctuator p)
      (hne : p ≠ .dot) : H → M.Along s s' :=
    hend (isDot_eq_false hk (fun h => hne (by simpa using h)))
  unfold applyAfter
  dsimp only
  rw [hspan, hsame]
  cases hk : token.kind with
  | punctuator p =>
    cases p with
    | plusPlus | minusMinus =>
      exact .pure (hdot hk (by decide))
        (fun h => h.expression (fun _ hc => hc)) rfl
    | lParen =>
      refine (hg.arguments (hdot hk (by decide))).bind (fun es t t' => ?_)
      refine .span (fun h => h.2.consumedTo_eq) (.pure And.right ?_ ?_)
      · rintro (h | h)
        · exact h.expression (fun c hc => List.mem_cons.2 (.inl
            (List.mem_singleton.1 hc)))
        · exact h.expression (fun c hc => List.mem_cons_of_mem _
            (by simpa using hc))
      · show _ = Expression.call _ (moveExpressions _ _) _
        rw [moveExpressions_eq]
        rfl
    | dot =>
      refine (propertyName_mirrors (fun hH => (h hH).start)).seq
        (fun id t t' => .pure And.right ?_ rfl)
      exact fun h => h.expression (fun c hc => List.mem_cons.2 (.inl
        (List.mem_singleton.1 hc)))
    | lBracket =>
      refine (hg.bracketed _ _ (fun hH => (h hH).start)).bind
        (fun index t t' => ?_)
      refine (expectPunctuator_mirrors (by decide)
        (fun h => h.2.start)).discard.seq (fun _ u u' => ?_)
      refine .span (fun h => h.2.consumedTo_eq) (.pure And.right ?_ rfl)
      rintro (h | h)
      · exact h.expression (fun c hc => List.mem_cons.2 (.inl
          (List.mem_singleton.1 hc)))
      · exact h.expression (fun c hc => List.mem_cons_of_mem _ hc)
    | _ => exact .throw _
  | _ => exact .throw _

omit [M.Lawful] hg in
/-- A marked operand makes a marked operation. -/
theorem marked_operation {e left right : Expression}
    (hchildren : e.children = [.expression left, .expression right])
    (h : M.Marked left ∨ M.Marked right) : M.Marked e := by
  rcases h with h | h
  · refine h.expression (fun c hc => ?_)
    rw [hchildren]
    exact List.mem_cons.2 (.inl (List.mem_singleton.1 hc))
  · refine h.expression (fun c hc => ?_)
    rw [hchildren]
    exact List.mem_cons_of_mem _ hc

theorem binaryOf_mirrors (operator : BinaryOperator) (right : Precedence)
    (h : H → M.Along s s') :
    Mirrors M M.Fits H (M.Marked left) M.move
      (do
        let second ← g.expression right
        pure (binaryOf operator left second))
      (do
        let second ← g.expression right
        pure (binaryOf operator (M.move left) second)) ctx s s'
      M.Along := by
  refine (hg.expression right (fun hH => (h hH).start)).bind
    (fun second t t' => .pure And.right (marked_operation rfl) ?_)
  show Expression.binary _ _ _ ((left.move _).span.cover
    (second.move _).span) = _
  rw [Expression.move_span, Expression.move_span, cover_move]
  rfl

/-- **An assignment of any kind.** -/
theorem assign_mirrors (mk : Expression → Expression → Span → Expression)
    (hmk : ∀ target value span,
      (mk target value span).children
          = [.expression target, .expression value]
        ∧ M.move (mk target value span)
          = mk (M.move target) (M.move value) (span.move M.place))
    (right : Precedence) (h : H → M.Along s s') :
    Mirrors M M.Fits H (M.Marked left) M.move
      (do
        let target ← liftM (assignmentTarget left)
        let value ← g.expression right
        pure (mk target value ⟨left.span.start, value.span.stop⟩))
      (do
        let target ← liftM (assignmentTarget (M.move left))
        let value ← g.expression right
        pure (mk target value ⟨(M.move left).span.start, value.span.stop⟩))
      ctx s s' M.Along := by
  refine (assignmentTarget_mirrors h).bindKept (fun target t t' => ?_)
  refine (hg.expression right (fun h => h.2.start)).bind
    (fun value u u' => .pure And.right
      (marked_operation (hmk _ _ _).1) ?_)
  rw [(hmk _ _ _).2]
  show mk _ _ ⟨(left.move _).span.start, (value.move _).span.stop⟩ = _
  rw [Expression.move_span, Expression.move_span]
  rfl

/-- **A mark between two operands.** -/
theorem applyMark_mirrors (token : Token) (p : Punctuator)
    (right : Precedence) (h : H → M.Along s s') :
    Mirrors M M.Fits H (M.Marked left) M.move
      (applyMark g left token p right)
      (applyMark g (M.move left) (M.token token) p right) ctx s s'
      M.Along := by
  unfold applyMark
  dsimp only
  split
  · refine (hg.expression right (fun hH => (h hH).start)).bind
      (fun second t t' => .pure And.right (marked_operation rfl) ?_)
    show Expression.sequence _ _ ((left.move _).span.cover
      (second.move _).span) = _
    rw [Expression.move_span, Expression.move_span, cover_move]
    rfl
  · exact assign_mirrors hg .assignment (fun _ _ _ => ⟨rfl, rfl⟩) right h
  · refine (hg.consequent (fun hH => (h hH).start)).bind
      (fun consequent t t' => ?_)
    refine (expectPunctuator_mirrors (by decide)
      (fun h => h.2.start)).discard.seq (fun _ u u' => ?_)
    refine (hg.expression right (fun h => h.2.start)).bind
      (fun alternate v v' => .pure And.right ?_ ?_)
    · rintro ((h | h) | h)
      · exact h.expression (fun c hc => by
          simp_all [Expression.children])
      · exact h.expression (fun c hc => by
          simp_all [Expression.children])
      · exact h.expression (fun c hc => by
          simp_all [Expression.children])
    · show Expression.conditional _ _ _ ⟨(left.move _).span.start,
        (alternate.move _).span.stop⟩ = _
      rw [Expression.move_span, Expression.move_span]
      rfl
  · split
    · exact assign_mirrors hg (.compoundAssignment _)
        (fun _ _ _ => ⟨rfl, rfl⟩) right h
    · split
      · exact binaryOf_mirrors hg _ right h
      · exact .throw _

omit hg in
/-- What is read may be the last token of a construct, unless it is a
dot. -/
theorem advance_mirrors_at [M.Backward E] (h : H → M.Fresh s s')
    (heof : s.current.isEof = false) :
    Mirrors M E H False M.token (liftM advance) (liftM advance) ctx s s'
      (fun t t' => M.At t t'
        ∧ (s.current.isPunctuator .dot = false → M.Along t t')) := by
  cases hdot : s.current.isPunctuator .dot with
  | true =>
    exact (advance_mirrors h heof).mono id id (fun _ => id)
      (fun _ _ h => ⟨h, fun hno => nomatch hno⟩)
  | false =>
    exact (advance_mirrors_along h heof hdot).mono id id (fun _ => id)
      (fun _ _ h => ⟨h.at_, fun _ => h⟩)

/-- **An operator is folded on in both texts.** -/
theorem applyOperator_mirrors (info : OperatorInfo)
    (h : H → M.Fresh s s') (heof : s.current.isEof = false) :
    Mirrors M M.Fits H (M.Marked left) M.move (applyOperator g left info)
      (applyOperator g (M.move left) info) ctx s s' M.Along := by
  refine Mirrors.read h (advance_mirrors_at h heof) (fun t t' => ?_)
  have hend {kind : TokenKind} (hk : s.current.kind = kind)
      (hdot : kind ≠ .punctuator .dot)
      (h : H ∧ M.At t t'
        ∧ (s.current.isPunctuator .dot = false → M.Along t t')) :
      M.Along t t' := h.2.2 (isDot_eq_false hk hdot)
  refine .ite (fun _ => Iff.rfl) (fun _ => applyAfter_mirrors hg s.current
    (fun h => h.2.1) (fun hdot h => h.2.2 hdot)) (fun _ => ?_)
  have hsame : (M.token s.current).kind = s.current.kind := rfl
  rw [hsame]
  cases hk : s.current.kind with
  | punctuator p =>
    by_cases hp : p = .dot
    · subst hp
      exact .throw _
    · exact applyMark_mirrors hg s.current p _
        (hend hk (fun h => hp (by simpa using h)))
  | keyword k =>
    cases k <;> exact binaryOf_mirrors hg _ _ (hend hk (fun h => nomatch h))
  | _ => exact binaryOf_mirrors hg _ _ (hend hk (fun h => nomatch h))

/-! ## The fold -/

omit [M.Lawful] hg in
/-- Where there is no operator in the first text there is none in the other
one. -/
theorem operator?_of_none {min : Precedence} (h : M.Along s s')
    (hnone : s.operator? ctx min = none) :
    s'.operator? (M.reflect ctx) min = none := by
  rcases h.at_ with h | h
  · rw [← hnone]
    unfold State.operator?
    rw [h.current_eq, h.newlineBefore_eq]
    rfl
  · refine Option.eq_none_iff_forall_ne_some.2 (fun info hsome => ?_)
    exact nomatch (isEof_of_operator? hsome).symm.trans h.isEof

omit [M.Lawful] hg in
theorem operator?_eq {min : Precedence} (h : M.Inside s s') :
    s'.operator? (M.reflect ctx) min = s.operator? ctx min := by
  unfold State.operator?
  rw [h.current_eq, h.newlineBefore_eq]
  rfl

/-- **One turn of the fold.** -/
theorem operatorTurn_mirrors (min : Precedence) (left : Expression)
    (s s' : State) :
    Mirrors M M.Fits (M.Along s s') (M.Marked left) M.move
      (operatorTurn g min left) (operatorTurn g min (M.move left)) ctx s s'
      M.Along := by
  refine .look _ _ (liftM_operatorAt?_run min ctx s)
    (liftM_operatorAt?_run min _ s') ?_
  cases hfound : s.operator? ctx min with
  | none =>
    refine .congr (fun h => by rw [operator?_of_none h hfound]) ?_
    exact .pure id id rfl
  | some info =>
    have heof := isEof_of_operator? hfound
    refine .reading (((applyOperator_past hg.sound left info heof)).past
      (fun _ _ => .pure trivial)) ?_
    refine .congr (fun h => by rw [operator?_eq (h.1.inside h.2), hfound]) ?_
    exact (applyOperator_mirrors hg info
      (fun h => (h.1.inside h.2).toFresh) heof).bindKept
      (fun e t t' => .pure And.right id rfl)

/-- **An expression is the same in both texts.** -/
theorem expressionFrom_alike (min : Precedence) :
    Alike M M.Fits M.Start (expressionFrom g min) (expressionFrom g min) := by
  intro H ctx s s' h
  have hturns := Nat.lt_succ_self (byteLength M.text)
  have hturns' := Nat.lt_succ_self (byteLength M.other)
  refine (operand_alike hg h).bind (fun left t t' => ?_)
  refine .look ctx (M.reflect ctx) rfl rfl ?_
  exact (Loop.run_mirrors ctx (operatorTurn_mirrors hg min)
    (operatorLoop_proceeds hturns hg.sound min)
    (operatorLoop_proceeds hturns' hg.sound' min) left t t').mono
    And.right (fun h => h.resolve_left id) (fun _ => id) (fun _ _ => id)

end ScriptTree.Parse
