import ScriptTree.Parse.Expression
import ScriptTree.Proofs.Parse.Operand

/-!
# Expressions in their places

Where an operator is folded onto an operand, what comes out begins where
the operand began. The fold carries that along: whatever it has made so
far takes up the place from the first token of the expression to the last
token read.

What is to be known of an operation besides its place (`P`) depends on
the run it came from. `Folded` is that run: an operand, and one operator
after another folded onto it. The rules for the single operators do not
look at it; they say where an operation stands *if* it is as it should
be.
-/

namespace ScriptTree

variable {root ctx : Context} {s t : State} {P : Expression → Prop}
  {g : Grammar}

/-- **The operator that may be folded at the current token**, as a
function of the state. -/
def State.operator? (ctx : Context) (min : Precedence) (s : State) :
    Option OperatorInfo :=
  if s.newlineBefore && ctx.newlinesMatter then none
  else if s.current.isKeyword .kwIn && !ctx.allowIn then none
  else (ctx.table.afterOperand? s.current.kind).filter
    (fun info => ¬info.precedence < min)

/-- **The expressions of a fold**: those it has after each of its turns,
with the states it has them in. -/
inductive Folded (g : Grammar) (min : Precedence) (ctx : Context)
    (s : State) : Expression → State → Prop where
  /-- The operand the fold begins with. -/
  | operand {e : Expression} {t : State}
      (run : Parse.operand g ctx s = (.ok e, t)) : Folded g min ctx s e t
  /-- One more operator. -/
  | operator {left e : Expression} {info : OperatorInfo} {t u : State}
      (before : Folded g min ctx s left t)
      (found : t.operator? ctx min = some info)
      (run : Parse.applyOperator g left info ctx t = (.ok e, u)) :
      Folded g min ctx s e u

namespace State

variable {b c : Nat} {left : Expression}

/-- An operand that has been read is a part of what is being read. -/
theorem Good.part (hs : s.Good root) (hleft : As root P .expression left b c)
    (hc : c ≤ s.consumedTo) : Parts root P b [.expression left] s := by
  have hlt := hleft.fits.start_lt_stop
  have hle := hs.consumedTo_le
  refine ⟨?_, .single hleft (Nat.le_refl b) hlt hc⟩
  exact Nat.le_trans (Nat.le_of_lt hlt) (Nat.le_trans hc hle)

/-- **An operation that has been read**: its first and its last operand
are at its ends. -/
theorem Leads.operation {e first last : Expression} (h : s.Leads root t)
    (hcut : IsCut root.source b)
    (hparts : Parts root P b (Node.expression e).children t)
    (hhead : (Node.expression e).children.head? = some (.expression first))
    (hlast : (Node.expression e).children.getLast?
      = some (.expression last))
    (hfirst : first.span.start = b) (hstop : last.span.stop = t.consumedTo)
    (hspan : e.span = ⟨b, t.consumedTo⟩)
    (hitems : (Node.expression e).items = []) (hP : P e) :
    Reads (As root P .expression) b e t := by
  have hpast : b < t.consumedTo := by
    cases hc : (Node.expression e).children with
    | nil =>
      rw [hc] at hhead
      exact nomatch hhead
    | cons n ns =>
      rw [hc] at hparts
      exact hparts.past
  refine ⟨hpast, .intro hspan (h.fits hcut hpast) hparts.row ?_
    (fun _ h => nomatch h) nofun (fun _ => ?_) hP⟩
  · rw [hitems]
    exact .nil
  · refine ⟨_, _, hhead, hlast, ?_⟩
    show e.span = ⟨first.span.start, last.span.stop⟩
    rw [hfirst, hstop, hspan]

end State

namespace Parse

open ScriptTree.Action

variable {b c : Nat} {left : Expression} (hg : g.Sound root P)

include hg

/-! ## Targets -/

/-- **What a target becomes**: it stays what it was, or an error node
takes its place. -/
structure Targeted (root : Context) (P : Expression → Prop) (s : State)
    (e r : Expression) (t : State) : Prop where
  /-- Nothing is read. -/
  still : s.Still t
  /-- Whatever it is, it is no operation that was not there before. -/
  eq_or_isPrimary : r = e ∨ r.isPrimary = true
  /-- It stands where the target stood. -/
  place {b c : Nat} : As root P .expression e b c →
    As root P .expression r b c

theorem refuse_ensures (error : ParseError) (e : Expression) :
    Action.Ensures root (refuse error e) ctx s (Targeted root P s e) := by
  refine (reportError_ensures _ error).bind fun _ t _ hstill => ?_
  refine .look _ rfl (.of_good fun hctx _ => .pure ?_)
  refine ⟨hstill, .inr rfl, fun {b c} he => ?_⟩
  refine Node.Fills.wrap (m := .error ⟨_, e.span⟩) ?_ rfl rfl rfl
    (hg.primary rfl)
  have hspan : e.span = ⟨b, c⟩ := he.spans
  refine .of_text rfl hspan he.fits ?_ nofun
  rw [hspan, hctx.source_eq]

theorem assignmentTarget_ensures (e : Expression) :
    Action.Ensures root (assignmentTarget e) ctx s (Targeted root P s e) :=
  .ite (fun _ => .pure ⟨⟨rfl, rfl, rfl⟩, .inl rfl, id⟩)
    (fun _ => refuse_ensures hg _ e)

theorem deleteTarget_ensures (e : Expression) :
    Action.Ensures root (deleteTarget e) ctx s (Targeted root P s e) :=
  .ite (fun _ => .pure ⟨⟨rfl, rfl, rfl⟩, .inl rfl, id⟩)
    (fun _ => refuse_ensures hg _ e)

/-! ## Operators before an operand -/

/-- **A sign before an operand** spans both. The operand has been read
behind the offset `b`, where the sign stands. -/
theorem applyBefore_ensures {token : Token} {argument : Expression}
    (hcut : IsCut root.source b) (hstart : token.span.start = b) (hb : b ≤ c)
    (hargument : As root P .expression argument c s.consumedTo) :
    Ensures root (applyBefore token argument) ctx s (fun e t => P e →
      State.Reads (As root P .expression) b e t) := by
  have hlt := hargument.fits.start_lt_stop
  have hpast : b < s.consumedTo := by
    show b < s.consumedTo
    exact Nat.lt_of_le_of_lt hb hlt
  have hspan : (⟨token.span.start, argument.span.stop⟩ : Span)
      = ⟨b, s.consumedTo⟩ := by
    rw [hstart, show argument.span = _ from hargument.spans]
  -- Whatever the sign, the operand is the only child.
  have hone : ∀ {e t}, s.Leads root t → t.consumedTo = s.consumedTo →
      (Node.expression e).isPlain = true → e.span = ⟨b, s.consumedTo⟩ →
      (∃ r, e.children = [.expression r]
        ∧ As root P .expression r c s.consumedTo) →
      P e → State.Reads (As root P .expression) b e t := by
    rintro e t hst hcons hplain hspan ⟨r, hchildren, hr⟩ hP
    rw [← hcons] at hpast hspan hr
    refine hst.node hcut hpast hplain hspan ?_ hP
    rw [show (Node.expression e).children = _ from hchildren]
    exact (hst.good.part hr (Nat.le_refl _)).sooner hb
  refine .of_good (fun _ hs => ?_)
  unfold applyBefore
  dsimp only
  rw [hspan]
  split
  case h_3 =>
    refine (Ensures.lift (deleteTarget_ensures hg argument)).bind
      fun r t hst h => ?_
    exact .pure (hone hst h.still.consumedTo_eq rfl rfl
      ⟨r, rfl, h.place hargument⟩)
  case h_12 => exact .throw _
  all_goals
    exact .pure (hone (.refl hs) rfl rfl rfl ⟨argument, rfl, hargument⟩)

omit hg in
/-- The end of the text is no operator. -/
theorem isEof_of_beforeOperand? {table : OperatorTable} {token : Token}
    {info : OperatorInfo}
    (h : table.beforeOperand? token.kind = some info) :
    token.isEof = false := by
  refine Bool.eq_false_iff.2 (fun heof => ?_)
  rw [show token.kind = .eof from of_decide_eq_true heof] at h
  exact nomatch h

theorem operand_ensures :
    Ensures root (operand g) ctx s (fun e t => P e →
      State.Reads (As root P .expression) s.here e t) := by
  have hprimary : Ensures root (primary g) ctx s (fun e t => P e →
      State.Reads (As root P .expression) s.here e t) :=
    (primary_ensures hg).mono (fun _ _ _ h _ => h.1)
  refine .look s.current rfl (.look ctx rfl (.of_good fun _ hs => ?_))
  split
  · rename_i info hinfo
    refine .ite (fun _ => ?_) (fun _ => hprimary)
    refine (Ensures.lift (advance_ensures
      (isEof_of_beforeOperand? hinfo)).discard).bind fun _ t hst _ => ?_
    refine (hg.expression _).bind fun argument u htu hargument => ?_
    exact applyBefore_ensures hg hs.isCut_here rfl hst.here_le hargument.2
  · exact hprimary

/-! ## Operators behind an operand -/

theorem callArguments_ensures :
    Ensures root (callArguments g) ctx s
      (fun es t => State.Parts root P s.here (es.map .expression) t) := by
  refine (separated_ensures hg.mend_expression
    (fun _ => assignment_ensures hg) _ _).bind fun es t _ hes => ?_
  refine (expectPunctuator_ensures .rParen).discard.bind
    fun _ u htu _ => ?_
  exact .pure (hes.parts.later htu)

/-- **A sign behind an operand**, with what belongs to it. The sign is the
last token read. -/
theorem applyAfter_ensures {token : Token}
    (hleft : As root P .expression left b c) (hc : c ≤ s.consumedTo)
    (htoken : s.consumedTo = token.span.stop) :
    Ensures root (applyAfter g left token) ctx s (fun e t => P e →
      State.Reads (As root P .expression) b e t) := by
  refine .of_good (fun _ hs => ?_)
  have hcut : IsCut root.source b := hleft.fits.isCut_start
  have hpart := hs.part hleft hc
  have hstart : left.span.start = b := by
    rw [show left.span = _ from hleft.spans]
  unfold applyAfter
  dsimp only
  rw [hstart]
  split
  · rw [← htoken]
    exact .pure (fun hP =>
      State.Leads.node (.refl hs) hcut hpart.past rfl rfl hpart hP)
  · rw [← htoken]
    exact .pure (fun hP =>
      State.Leads.node (.refl hs) hcut hpart.past rfl rfl hpart hP)
  · refine hg.arguments.bind fun arguments t hst harguments => ?_
    refine .look (t.spanFrom b) rfl ?_
    have hparts := hpart.append hst harguments
    rw [State.spanFrom_eq hparts.past]
    exact .pure (fun hP => hst.node hcut hparts.past rfl rfl hparts hP)
  · refine (propertyName_ensures P).bind fun property t hst hproperty => ?_
    have hparts := hpart.read hst hproperty
    have hstop : property.span.stop = t.consumedTo := by
      rw [show property.span = _ from hproperty.2.spans]
    rw [hstop]
    exact .pure (fun hP => hst.node hcut hparts.past rfl rfl hparts hP)
  · refine (hg.bracketed _ _).bind fun index t hst hindex => ?_
    refine (expectPunctuator_ensures .rBracket).discard.bind
      fun _ u htu _ => ?_
    refine .look (u.spanFrom b) rfl ?_
    have hparts := (hpart.read hst hindex).later htu
    rw [State.spanFrom_eq hparts.past]
    exact .pure (fun hP => htu.node hcut hparts.past rfl rfl hparts hP)
  · exact .throw _

omit hg in
/-- The least span that holds two operands goes from the one to the
other. -/
theorem cover_eq {right : Expression}
    (hleft : As root P .expression left b c) (hc : c ≤ s.here)
    (hright : State.Reads (As root P .expression) s.here right t) :
    left.span.cover right.span = ⟨b, t.consumedTo⟩ := by
  have hlt := hleft.fits.start_lt_stop
  have hpast := hright.1
  rw [show left.span = _ from hleft.spans,
    show right.span = _ from hright.2.spans]
  simp only [Span.cover, Span.mk.injEq]
  dsimp only at hlt
  omega

omit hg in
/-- **Two operands and what is made of them.** -/
theorem two_operands {e right : Expression}
    (hleft : As root P .expression left b c) (hc : c ≤ s.consumedTo)
    (hst : s.Leads root t)
    (hright : State.Reads (As root P .expression) s.here right t)
    (hchildren : e.children = [.expression left, .expression right])
    (hspan : e.span = ⟨b, t.consumedTo⟩)
    (hitems : (Node.expression e).items = []) (hP : P e) :
    State.Reads (As root P .expression) b e t := by
  have hnode : (Node.expression e).children
      = [.expression left, .expression right] := hchildren
  have hparts := (hst.good_start.part hleft hc).read hst hright
  rw [List.singleton_append, ← hnode] at hparts
  have hhead : (Node.expression e).children.head?
      = some (.expression left) := by rw [hnode]; rfl
  have hlast : (Node.expression e).children.getLast?
      = some (.expression right) := by rw [hnode]; rfl
  refine hst.operation hleft.fits.isCut_start hparts hhead hlast ?_ ?_
    hspan hitems hP
  · rw [show left.span = _ from hleft.spans]
  · rw [show right.span = _ from hright.2.spans]

/-- **An operator between two operands**, the first of which has been
read. -/
theorem binaryOf_ensures (operator : BinaryOperator) (right : Precedence)
    (hleft : As root P .expression left b c) (hc : c ≤ s.consumedTo) :
    Ensures root (do
      let second ← g.expression right
      pure (binaryOf operator left second)) ctx s (fun e t => P e →
        State.Reads (As root P .expression) b e t) := by
  refine .of_good (fun _ hs => ?_)
  refine (hg.expression right).bind fun second t hst hsecond => ?_
  have hspan := cover_eq hleft (Nat.le_trans hc hs.consumedTo_le) hsecond
  exact .pure (two_operands hleft hc hst hsecond rfl hspan rfl)

/-- **An assignment of any kind.** Its target may have been refused, and
stands where it stood nevertheless. -/
theorem assign_ensures (mk : Expression → Expression → Span → Expression)
    (hmk : ∀ target value span,
      (mk target value span).children
          = [.expression target, .expression value]
        ∧ (mk target value span).span = span
        ∧ (Node.expression (mk target value span)).items = [])
    (right : Precedence) (hleft : As root P .expression left b c)
    (hc : c ≤ s.consumedTo) :
    Ensures root (do
      let target ← liftM (assignmentTarget left)
      let value ← g.expression right
      pure (mk target value ⟨left.span.start, value.span.stop⟩)) ctx s
      (fun e t => P e → State.Reads (As root P .expression) b e t) := by
  refine (Ensures.lift (assignmentTarget_ensures hg left)).bind
    fun target t _ htarget => ?_
  refine (hg.expression right).bind fun value u htu hvalue => ?_
  obtain ⟨hchildren, hspan, hitems⟩ :=
    hmk target value ⟨left.span.start, value.span.stop⟩
  refine .pure (two_operands (htarget.place hleft) ?_ htu hvalue hchildren
    ?_ hitems)
  · rw [htarget.still.consumedTo_eq]
    exact hc
  · rw [hspan, show value.span = _ from hvalue.2.spans,
      show left.span = _ from hleft.spans]

/-- **A mark between two operands**, the first of which has been read. -/
theorem applyMark_ensures (token : Token) (p : Punctuator)
    (right : Precedence) (hleft : As root P .expression left b c)
    (hc : c ≤ s.consumedTo) :
    Ensures root (applyMark g left token p right) ctx s (fun e t => P e →
      State.Reads (As root P .expression) b e t) := by
  refine .of_good (fun _ hs => ?_)
  unfold applyMark
  dsimp only
  split
  · refine (hg.expression right).bind fun second t hst hsecond => ?_
    have hspan := cover_eq hleft (Nat.le_trans hc hs.consumedTo_le) hsecond
    exact .pure (two_operands hleft hc hst hsecond rfl hspan rfl)
  · exact assign_ensures hg .assignment (fun _ _ _ => ⟨rfl, rfl, rfl⟩) right
      hleft hc
  · refine hg.consequent.bind fun consequent t hst hconsequent => ?_
    refine (expectPunctuator_ensures .colon).discard.bind
      fun _ u htu _ => ?_
    refine (hg.expression right).bind fun alternate v huv halternate => ?_
    have hparts := (((hs.part hleft hc).read hst hconsequent).later
      htu).read huv halternate
    have hstart : left.span.start = b := by
      rw [show left.span = _ from hleft.spans]
    have hstop : alternate.span.stop = v.consumedTo := by
      rw [show alternate.span = _ from halternate.2.spans]
    rw [hstart, hstop]
    exact .pure (fun hP => huv.operation hleft.fits.isCut_start hparts rfl
      rfl hstart hstop rfl rfl hP)
  · split
    · exact assign_ensures hg (.compoundAssignment _)
        (fun _ _ _ => ⟨rfl, rfl, rfl⟩) right hleft hc
    · split
      · exact binaryOf_ensures hg _ right hleft hc
      · exact .throw _

/-- **An operator folded onto what was read before it.** The operator at
least is read. -/
theorem applyOperator_ensures (info : OperatorInfo)
    (heof : s.current.isEof = false)
    (hleft : State.Reads (As root P .expression) b left s) :
    Ensures root (applyOperator g left info) ctx s (fun e t =>
      s.here < t.consumedTo
        ∧ (P e → State.Reads (As root P .expression) b e t)) := by
  refine (Ensures.lift (advance_ensures heof)).bind
    fun token t hst htook => ?_
  refine Ensures.mono (Q := fun e u => P e →
    State.Reads (As root P .expression) b e u) ?_ (fun e u htu h =>
      ⟨Nat.lt_of_lt_of_le htook.past htu.consumedTo_le, h⟩)
  have hle := hst.consumedTo_le
  refine .ite (fun _ => ?_) (fun _ => ?_)
  · exact applyAfter_ensures hg hleft.2 hle htook.consumedTo_eq
  split
  · exact applyMark_ensures hg token _ _ hleft.2 hle
  · exact binaryOf_ensures hg _ _ hleft.2 hle
  · exact binaryOf_ensures hg _ _ hleft.2 hle

/-! ## The fold -/

omit hg in
/-- Looking for an operator changes nothing. -/
theorem operatorAt?_run (min : Precedence) (ctx : Context) (s : State) :
    operatorAt? min ctx s = (s.operator? ctx min, s) := by
  unfold operatorAt? State.operator?
  show (ite _ _ _ : Action _) ctx s = _
  split
  · rfl
  · split
    · rfl
    · cases ctx.table.afterOperand? s.current.kind with
      | none => rfl
      | some info =>
        by_cases h : info.precedence < min
        · simp only [h, Option.filter]
          rfl
        · simp only [h, Option.filter]
          rfl

omit hg in
/-- In a production, too. -/
theorem liftM_operatorAt?_run (min : Precedence) (ctx : Context)
    (s : State) :
    (liftM (operatorAt? min) : Parse (Option OperatorInfo)) ctx s
      = (.ok (s.operator? ctx min), s) := by
  show (Except.ok (operatorAt? min ctx s).1, (operatorAt? min ctx s).2) = _
  rw [operatorAt?_run]

omit hg in
/-- Nor is it one behind an operand. -/
theorem isEof_of_operator? {min : Precedence} {info : OperatorInfo}
    (h : s.operator? ctx min = some info) : s.current.isEof = false := by
  refine Bool.eq_false_iff.2 (fun heof => ?_)
  have hk : s.current.kind = .eof := of_decide_eq_true heof
  unfold State.operator? at h
  rw [hk] at h
  split at h
  · exact nomatch h
  · split at h
    · exact nomatch h
    · exact nomatch h

variable (hfolded : ∀ {min : Precedence} {ctx : Context} {s : State}
  {e : Expression} {t : State}, root.Within ctx → s.Good root →
  Folded g min ctx s e t → P e)

include hfolded

/-- **The fold** keeps the place where the expression began, and takes
turns enough: an operator that is read makes what is left shorter. -/
theorem foldOperators_ensures (min : Precedence) (turns : Nat)
    (hs : s.Good root) (hfold : Folded g min ctx s left t)
    (hleft : State.Reads (As root P .expression) b left t) :
    Ensures root (foldOperators g min turns left) ctx t (fun e u =>
      State.Reads (As root P .expression) b e u ∧ Folded g min ctx s e u
        ∧ (byteLength root.source - t.here < turns →
          u.operator? ctx min = none)) := by
  -- Only the fold so far tells what the expression is, so it is carried
  -- along with the place.
  induction turns generalizing left t with
  | zero => exact .pure ⟨hleft, hfold, fun h => nomatch h⟩
  | succ turns ih =>
    refine .look _ (liftM_operatorAt?_run min ctx t) (.of_good fun hctx _ => ?_)
    cases hfound : t.operator? ctx min with
    | none => exact .pure ⟨hleft, hfold, fun _ => hfound⟩
    | some info =>
      refine (applyOperator_ensures hg info (isEof_of_operator? hfound)
        hleft).with_run.bind fun e u htu he => ?_
      obtain ⟨⟨hpast, hreads⟩, hrun⟩ := he
      have hfold := hfold.operator hfound hrun
      refine (ih hfold (hreads (hfolded hctx hs hfold))).mono
        fun r v _ h => ⟨h.1, h.2.1, fun hturns => h.2.2 ?_⟩
      have hhere := htu.good.consumedTo_le
      have hlen := htu.good.isCut_here.le
      omega

/-- **An expression**, with the fold it comes from. The fold has ended at
something that is no operator, or too loose an operator. -/
theorem expressionFrom_ensures (min : Precedence) :
    Ensures root (expressionFrom g min) ctx s (fun e t =>
      State.Reads (As root P .expression) s.here e t
        ∧ Folded g min ctx s e t
        ∧ (byteLength root.source < root.turns →
          t.operator? ctx min = none)) := by
  refine .of_good (fun hctx hs => ?_)
  refine (operand_ensures hg).with_run.bind fun e t _ he => ?_
  have hfold : Folded g min ctx s e t := .operand he.2
  refine .look ctx rfl ?_
  refine (foldOperators_ensures hg hfolded min _ hs hfold
    (he.1 (hfolded hctx hs hfold))).mono
    fun r u _ h => ⟨h.1, h.2.1, fun hroot => h.2.2 ?_⟩
  rw [hctx.turns_eq]
  omega

end Parse

end ScriptTree
