import ScriptTree.Proofs.Law.Operand
import ScriptTree.Proofs.Parse.Rank

/-!
# Operations are made by law

Whatever an operator makes of what stands before it, this takes a seat: an
accessed one if the operator is one of the marks that begin a call or an
access, and that of a first operand if not. So each turn of the fold asks
of what has been folded just what may be asked of it before the next token,
and the end of the fold asks what may be asked of the whole.
-/

namespace ScriptTree.Parse

open ScriptTree.Action Node State

variable {root ctx : Context} {s last : State} {L : Law} {k : Nat}
  {g : Grammar} {token : Token} {left : Expression}

/-! ## Targets -/

/-- **A target** is what is left of a first operand. -/
theorem assignmentTarget_brings (hg : g.Lawful root last L k)
    {e : Expression} (hframed : e.span.Framed root.source) :
    Action.Brings root last (assignmentTarget e) ctx s
      (fun target => L.sits k .operand e → L.sits k .assigned target) :=
  fun hctx hs => ⟨(assignmentTarget_accounts hframed hctx hs).1,
    fun hlast => hg.law.assigned hctx hs hlast⟩

/-- So is what is deleted. -/
theorem deleteTarget_brings (hg : g.Lawful root last L k)
    {e : Expression} (hframed : e.span.Framed root.source) :
    Action.Brings root last (deleteTarget e) ctx s
      (fun target => L.sits k .behind e → L.sits k .deleted target) :=
  fun hctx hs => ⟨(deleteTarget_accounts hframed hctx hs).1,
    fun hlast => hg.law.deleted hctx hs hlast⟩

/-! ## Operators before an operand -/

/-- **What a sign makes of the operand behind it.** -/
theorem applyBefore_brings (hg : g.Lawful root last L k)
    {argument : Expression} (htoken : token ∈ s.known)
    (hframed : argument.span.Framed root.source) :
    Brings root last (applyBefore token argument) ctx s (fun e =>
      L.sits k .behind argument → L.made k (.expression e)) := by
  unfold applyBefore
  dsimp only
  split
  case h_3 =>
    refine (Brings.lift (deleteTarget_brings hg hframed)).bind
      fun e t _ => .pure fun htarget hargument => ?_
    exact hg.law.makes (htarget hargument) (.expression .nil)
  case h_12 =>
    exact .throw (fun hs => ParseError.ofToken_founded hs htoken _)
  all_goals exact .pure fun hargument =>
    hg.law.makes hargument (.expression .nil)

section Operators

variable (hg : g.Lawful root last L k)

include hg

/-- **An operand**, with the operators in front of it. -/
theorem operand_brings :
    Brings root last (operand g) ctx s
      (fun e => L.made k (.expression e)) := by
  refine .since fun hctx _ => ?_
  refine .look s.current rfl (.look ctx rfl ?_)
  have hprimary : Brings root last (primary g) ctx s (fun e =>
      Acts root s last → L.made k (.expression e)) :=
    (primary_brings hg).mono fun _ h _ => h
  split
  · rename_i info hinfo
    refine .ite (fun hfixity => ?_) (fun _ => hprimary)
    have hsilent : s.current.IsSilent := Token.isSilent_of_find? hinfo
    refine .skip (.lift ((advance_accounts hsilent.isEof_eq_false).mono
      (fun _ _ _ h => h.2)).discard) fun _ t _ htaken => ?_
    rw [hctx.table_eq] at hinfo
    refine (hg.expression (.before hinfo hfixity)).bind_ensures
      (hg.gathers.sound.expression _) fun argument u htu hargument => ?_
    have hknown : s.current ∈ u.known := by
      refine mem_known_of_taken (htu.taken_subset ?_)
      rw [htaken]
      exact List.mem_cons_self
    exact (applyBefore_brings hg hknown (framed_of_reads hargument)).mono
      fun _ h hargument _ => h hargument
  · exact hprimary

/-! ## Operators behind an operand -/

/-- **An argument** has the level of the call to itself. -/
theorem callArguments_brings :
    Brings root last (callArguments g) ctx s
      (fun es => ∀ e ∈ es, L.sits (k + 1) .plain e) :=
  (separated_brings (hg.law.mended k) (fun _ =>
    (assignment_brings hg).mono fun _ => hg.law.sits_succ) _ _).bind
    fun _ _ _ => .skip (expectPunctuator_accounts .rParen).discard
      fun _ _ _ _ => .pure id

variable (left)

/-- **What an operator makes of what stands before it**, where this sits
as it should before the operator's token. -/
def SeatsLeft (L : Law) (k : Nat) (token : Token)
    (left e : Expression) : Prop :=
  L.sits k (.before token) left → L.made k (.expression e)

variable {left}

omit hg in
/-- **Which marks begin a call or an access.** -/
theorem opensAccess_of_kind {p : Punctuator}
    (hk : token.kind = .punctuator p) :
    opensAccess token = decide (p = .lParen ∨ p = .dot ∨ p = .lBracket) := by
  simp [opensAccess, Token.isPunctuator, hk, Bool.or_assoc]

omit hg in
/-- An operator that begins no call and no access has a first operand. -/
theorem SeatsLeft.of_operand {e : Expression} {p : Punctuator}
    (hk : token.kind = .punctuator p)
    (hp : ¬(p = .lParen ∨ p = .dot ∨ p = .lBracket))
    (h : L.sits k .operand left → L.made k (.expression e)) :
    SeatsLeft L k token left e := by
  rwa [SeatsLeft, Seat.before, opensAccess_of_kind hk, decide_eq_false hp]

omit hg in
/-- So does a word. -/
theorem SeatsLeft.of_word {e : Expression}
    (hk : ∀ p, token.kind ≠ .punctuator p)
    (h : L.sits k .operand left → L.made k (.expression e)) :
    SeatsLeft L k token left e := by
  have hno : opensAccess token = false := by
    simp [opensAccess, Token.isPunctuator, hk]
  rwa [SeatsLeft, Seat.before, hno]

omit hg in
/-- A call or an access takes what is called or accessed. -/
theorem SeatsLeft.of_accessed {e : Expression} {p : Punctuator}
    (hk : token.kind = .punctuator p)
    (hp : p = .lParen ∨ p = .dot ∨ p = .lBracket)
    (h : L.sits k .accessed left → L.made k (.expression e)) :
    SeatsLeft L k token left e := by
  rwa [SeatsLeft, Seat.before, opensAccess_of_kind hk, decide_eq_true hp]

theorem applyAfter_brings (htoken : token ∈ s.known) :
    Brings root last (applyAfter g left token) ctx s
      (SeatsLeft L k token left) := by
  unfold applyAfter
  dsimp only
  split
  case h_1 hk =>
    exact .pure (.of_operand hk (by decide)
      fun hleft => hg.law.makes hleft (.expression .nil))
  case h_2 hk =>
    exact .pure (.of_operand hk (by decide)
      fun hleft => hg.law.makes hleft (.expression .nil))
  case h_3 hk =>
    refine hg.arguments.bind fun arguments t _ => ?_
    refine .look (t.spanFrom _) rfl (.pure fun hes =>
      .of_accessed hk (by decide) fun hleft => ?_)
    exact hg.law.makes ⟨hleft, hes⟩ (.expression (.expressions _))
  case h_4 hk =>
    exact .skip propertyName_accounts fun property _ _ _ =>
      .pure (.of_accessed hk (by decide) fun hleft => hg.law.makes hleft
        (.expression (.one (hg.law.identifier _))))
  case h_5 hk =>
    refine (hg.bracketed _ _).bind fun index _ _ => ?_
    refine .skip (expectPunctuator_accounts .rBracket).discard
      fun _ u _ _ => ?_
    refine .look (u.spanFrom _) rfl (.pure fun hindex =>
      .of_accessed hk (by decide) fun hleft => ?_)
    exact hg.law.makes ⟨hleft, hindex⟩ (.expression (.expression .nil))
  case h_6 =>
    exact .throw (fun hs => ParseError.ofToken_founded hs htoken _)

variable {right : Precedence} (hright : root.table.Asks right)

include hright

theorem binaryOf_brings (operator : BinaryOperator) :
    Brings root last (do
      let second ← g.expression right
      pure (binaryOf operator left second)) ctx s
      (fun e => L.sits k .operand left → L.made k (.expression e)) :=
  (whole_brings hg hright).bind fun _ _ _ => .pure fun hsecond hleft =>
    hg.law.makes ⟨hleft, hsecond⟩ (.expression (.expression .nil))

/-- **An assignment of any kind.** -/
theorem assign_brings (mk : Expression → Expression → Span → Expression)
    (hmk : ∀ target value span, (mk target value span).children
          = [.expression target, .expression value]
        ∧ (L.sits k .assigned target ∧ L.sits k .plain value →
          (mk target value span).Seated (L.sits k)))
    (hframed : left.span.Framed root.source) :
    Brings root last (do
      let target ← liftM (assignmentTarget left)
      let value ← g.expression right
      pure (mk target value ⟨left.span.start, value.span.stop⟩)) ctx s
      (fun e => L.sits k .operand left → L.made k (.expression e)) := by
  refine (Brings.lift (assignmentTarget_brings hg hframed)).bind
    fun target t _ => (whole_brings hg hright).bind
      fun value u _ => .pure fun hvalue htarget hleft => ?_
  obtain ⟨hchildren, hseated⟩ :=
    hmk target value ⟨left.span.start, value.span.stop⟩
  refine hg.law.makes (hseated ⟨htarget hleft, hvalue⟩) ?_
  rw [Node.children, hchildren]
  exact .expression (.expression .nil)

theorem applyMark_brings {p : Punctuator}
    (hk : token.kind = .punctuator p) (htoken : token ∈ s.known)
    (hframed : left.span.Framed root.source) :
    Brings root last (applyMark g left token p right) ctx s
      (SeatsLeft L k token left) := by
  unfold applyMark
  dsimp only
  split
  · refine (whole_brings hg hright).bind fun second _ _ => .pure fun hsecond =>
      .of_operand hk (by decide) fun hleft => ?_
    exact hg.law.makes ⟨hleft, hsecond⟩ (.expression (.expression .nil))
  · exact (assign_brings hg hright .assignment
      (fun _ _ _ => ⟨rfl, id⟩) hframed).mono
      fun _ h => .of_operand hk (by decide) h
  · refine hg.consequent.bind fun consequent _ _ => ?_
    refine .skip (expectPunctuator_accounts .colon).discard
      fun _ _ _ _ => ?_
    refine (whole_brings hg hright).bind fun alternate _ _ =>
      .pure fun halternate hconsequent =>
        .of_operand hk (by decide) fun hleft => ?_
    exact hg.law.makes ⟨hleft, hconsequent, halternate⟩
      (.expression (.expression (.expression .nil)))
  · split
    · rename_i operator hoperator
      refine (assign_brings hg hright (.compoundAssignment _)
        (fun _ _ _ => ⟨rfl, id⟩) hframed).mono fun _ h =>
          .of_operand hk ?_ h
      rintro (rfl | rfl | rfl) <;> cases hoperator
    · split
      · rename_i operator hoperator
        refine (binaryOf_brings hg hright operator).mono fun _ h =>
          .of_operand hk ?_ h
        rintro (rfl | rfl | rfl) <;> cases hoperator
      · exact .throw (fun hs => ParseError.ofToken_founded hs htoken _)

omit hright in
/-- **One operator** folded onto an operand, which is the token that comes
next. -/
theorem applyOperator_brings {info : OperatorInfo}
    (hinfo : root.table.afterOperand? s.current.kind = some info)
    (heof : s.current.isEof = false)
    (hframed : left.span.Framed root.source) :
    Brings root last (applyOperator g left info) ctx s
      (SeatsLeft L k s.current left) := by
  refine .skip (.lift (advance_accounts heof)) fun token t _ htook => ?_
  obtain ⟨rfl, htaken⟩ := htook
  have hknown : s.current ∈ t.known := by
    refine mem_known_of_taken ?_
    rw [htaken]
    exact List.mem_cons_self
  refine .ite (fun _ => applyAfter_brings hg hknown) (fun hfixity => ?_)
  have hright : root.table.Asks info.rightOperand :=
    .between hinfo hfixity
  split
  case h_1 hk => exact applyMark_brings hg hright hk hknown hframed
  case h_2 hk =>
    exact (binaryOf_brings hg hright _).mono fun _ h =>
      .of_word (fun p hp => by cases hk.symm.trans hp) h
  case h_3 hk _ =>
    exact (binaryOf_brings hg hright _).mono fun _ h => .of_word hk h

/-! ## The fold -/

omit hright in
/-- **The fold.** What it has made so far may take the seat before the next
token, so the next operator may have it. -/
theorem foldOperators_brings (min : Precedence) (turns : Nat) {b : Nat}
    {r : State} (hr : r.Reached root) (hrs : Acts root r s)
    (hfold : Folded g min ctx r left s)
    (hreads : State.Reads (As root (fun _ => True) .expression) b left s) :
    Brings root last (foldOperators g min turns left) ctx s (fun e =>
      L.made k (.expression left) → L.made k (.expression e)) := by
  induction turns generalizing left s with
  | zero => exact .pure id
  | succ turns ih =>
    refine .look _ (liftM_operatorAt?_run min ctx s) ?_
    cases hfound : s.operator? ctx min with
    | none => exact .pure id
    | some info =>
      refine .since fun hctx _ => ?_
      have heof := isEof_of_operator? hfound
      have hinfo : root.table.afterOperand? s.current.kind = some info := by
        rw [← hctx.table_eq]
        exact (operator?_eq_some_iff.1 hfound).2.2.1
      have hframed := framed_of_reads hreads
      refine (applyOperator_brings hg hinfo heof hframed).bind_ensures
        (applyOperator_ensures hg.gathers.sound info heof hreads).with_run
        fun e t hst he => ?_
      refine (ih (hrs.trans hst) (hfold.operator hfound he.2)
        (he.1.2 trivial)).mono fun _ h hseats hlast hmade => h (hseats ?_)
      exact hg.folded hctx hr hrs hfold hlast hmade

omit hright in
/-- **An expression** from the operand it begins with. -/
theorem expressionFrom_brings (min : Precedence) :
    Brings root last (expressionFrom g min) ctx s
      (fun e => L.made k (.expression e)) := by
  refine .since fun _ hs => ?_
  refine (operand_brings hg).bind_ensures
    (operand_ensures hg.gathers.sound).with_run fun e t hst he => ?_
  refine .look ctx rfl ?_
  exact (foldOperators_brings hg min _ hs hst (.operand he.2)
    (he.1 trivial)).mono fun _ h hmade _ => h hmade

end Operators

end ScriptTree.Parse
