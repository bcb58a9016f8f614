import ScriptTree.Proofs.Parse.Statement
import ScriptTree.Proofs.Tree.Rank

/-!
# How operators group

With the standard table every expression of a tree has operands that bind
as tightly as they must. On the right this is what the limit is for that
is handed to the production of an operand. On the left nothing is handed
to anybody: when an operator is folded onto an expression, the expression
has been read already. What makes it tight enough is that the operator
was *not* folded inside it. An expression that ends with an operand ends
where the next operator is too loose for that operand
(`Expression.Settled`), so an operator found there is looser still.

Both operators are found at the same token and in the same context, and
so nothing needs to be known of line breaks or of `in`.
-/

namespace ScriptTree

variable {root ctx : Context} {s t : State} {P : Expression → Prop}
  {g : Grammar} {min : Precedence} {info : OperatorInfo}
  {e left : Expression}

/-! ## Finding operators -/

namespace State

theorem operator?_eq_some_iff :
    s.operator? ctx min = some info ↔
      (s.newlineBefore && ctx.newlinesMatter) = false
        ∧ (s.current.isKeyword .kwIn && !ctx.allowIn) = false
        ∧ ctx.table.afterOperand? s.current.kind = some info
        ∧ min.level ≤ info.precedence.level := by
  have hlt : (¬info.precedence < min) ↔ min.level ≤ info.precedence.level :=
    Int.not_lt
  unfold operator?
  by_cases hline : (s.newlineBefore && ctx.newlinesMatter) = true
  · rw [if_pos hline, hline]
    exact ⟨fun h => (nomatch h), fun h => nomatch h.1⟩
  rw [if_neg hline]
  by_cases hin : (s.current.isKeyword .kwIn && !ctx.allowIn) = true
  · rw [if_pos hin, hin]
    exact ⟨fun h => (nomatch h), fun h => nomatch h.2.1⟩
  rw [if_neg hin, Option.filter_eq_some_iff, decide_eq_true_eq, hlt]
  rw [Bool.not_eq_true] at hline hin
  exact ⟨fun h => ⟨hline, hin, h⟩, fun h => h.2.2⟩

/-- **An operator that is not found for one limit and found for another**
is looser than the first. -/
theorem lt_of_operator? {p : Precedence}
    (hfound : s.operator? ctx min = some info)
    (hnone : s.operator? ctx p = none) :
    info.precedence.level < p.level := by
  obtain ⟨hline, hin, hinfo, _⟩ := operator?_eq_some_iff.1 hfound
  -- The two searches differ in nothing but the limit.
  refine Int.not_le.1 (fun hle => ?_)
  rw [operator?_eq_some_iff.2 ⟨hline, hin, hinfo, hle⟩] at hnone
  exact nomatch hnone

/-- The operator is looked for at the current token and nowhere else. -/
theorem Still.operator?_eq (h : s.Still t) (min : Precedence) :
    t.operator? ctx min = s.operator? ctx min := by
  unfold operator?
  rw [h.current_eq, h.newlineBefore_eq]

end State

/-! ## The standard table -/

namespace OperatorTable

/-- What is found in a table is one of its entries. -/
theorem exists_entry {table : OperatorTable} {kind : TokenKind}
    {fixity : Fixity} (h : table.find? kind fixity = some info) :
    ∃ e ∈ table.entries, e.2 = info := by
  obtain ⟨operator, _, hlookup⟩ := Option.bind_eq_some_iff.1 h
  obtain ⟨entry, hfind, rfl⟩ := Option.map_eq_some_iff.1 hlookup
  exact ⟨entry, List.mem_of_find?_eq_some hfind, rfl⟩

/-- **The levels of the standard table** are far from the last one. -/
theorem standard_level_le {kind : TokenKind} {fixity : Fixity}
    (h : standard.find? kind fixity = some info) :
    info.precedence.level ≤ 13 := by
  obtain ⟨entry, hentry, rfl⟩ := exists_entry h
  have hall : ∀ e ∈ standard.entries, e.2.precedence.level ≤ 13 := by decide
  exact hall entry hentry

end OperatorTable

/-- Below the last level there is a next one. -/
theorem Precedence.tighter_eq {p : Precedence} (h : p.level ≤ 13) :
    p.tighter = ⟨p.level + 1⟩ := by
  unfold tighter
  rw [Int.min_eq_right (show p.level + 1 ≤ 127 by omega)]

/-! ## Expressions that are complete -/

/-- **An expression that has been read to its end**: the operands in it
bind as tightly as they must, and what follows belongs to none of
them. -/
structure Expression.Settled (ctx : Context) (e : Expression)
    (t : State) : Prop where
  /-- Its operands bind as tightly as they must. -/
  ranked : e.Ranked
  /-- What follows does not belong to the last of them. -/
  ends : ∀ p, e.reach = some p → t.operator? ctx p = none

namespace Expression

/-- What is no operation binds most tightly, has no operands and ends
with none. -/
theorem of_isPrimary (h : e.isPrimary = true) :
    e.level = 14 ∧ e.Ranked ∧ e.reach = none := by
  cases e
  case call | newObject | await | member | subscript | assignment
      | compoundAssignment | conditional | binary | unary | update
      | sequence =>
    exact nomatch h
  all_goals exact ⟨rfl, trivial, rfl⟩

/-- An expression that ends with an operand ends where the operand
does. -/
theorem Settled.intro {p : Precedence} (hranked : e.Ranked)
    (hreach : e.reach = some p) (hend : t.operator? ctx p = none) :
    e.Settled ctx t := by
  refine ⟨hranked, fun q hq => ?_⟩
  rw [hreach] at hq
  exact Option.some.inj hq ▸ hend

/-- An expression that ends with no operand ends anywhere. -/
theorem Settled.of_reach (hranked : e.Ranked) (hreach : e.reach = none) :
    e.Settled ctx t := by
  refine ⟨hranked, fun q hq => ?_⟩
  rw [hreach] at hq
  exact nomatch hq

theorem Settled.of_isPrimary (h : e.isPrimary = true) : e.Settled ctx t :=
  .of_reach (Expression.of_isPrimary h).2.1 (Expression.of_isPrimary h).2.2

/-- **An operator found behind a complete expression** may follow it. -/
theorem Settled.endsBefore (h : e.Settled ctx t)
    (hfound : t.operator? ctx min = some info) :
    e.EndsBefore info.precedence.level :=
  fun p hp => State.lt_of_operator? hfound (h.ends p hp)

end Expression

/-- **A grammar whose expressions bind** as tightly as they are asked to,
and end where they should. -/
structure Grammar.Ranks (root : Context) (g : Grammar) : Prop where
  /-- An expression is no looser than the limit. -/
  expression (min : Precedence) (hmin : min.level ≤ 14) {ctx : Context}
    {s : State} :
    Parse.Ensures root (g.expression min) ctx s (fun e t =>
      e.Follows (min.level - 1) ∧ t.operator? ctx min = none)
  /-- A first branch has no comma of its own. -/
  consequent {ctx : Context} {s : State} :
    Parse.Ensures root g.consequent ctx s (fun e _ => e.Follows (-1))

namespace Parse

open ScriptTree.Action OperatorTable

/-! ## Operators before an operand -/

section Before

variable (hg : g.Sound root P)

include hg

/-- **A sign before an operand** makes an operation of its own level. -/
theorem applyBefore_ranks {token : Token} {argument : Expression}
    (hinfo : standard.beforeOperand? token.kind = some info)
    (hargument : argument.Follows info.precedence.level)
    (hend : s.operator? ctx info.precedence.tighter = none) :
    Ensures root (applyBefore token argument) ctx s (fun e t =>
      e.Settled ctx t ∧ e.isPrefixForm = true) := by
  unfold applyBefore
  dsimp only
  split
  case h_3 hk =>
    rw [hk] at hinfo
    cases hinfo
    refine (Ensures.lift (deleteTarget_ensures hg argument)).bind
      fun r t _ h => .pure ⟨.intro ?_ rfl ?_, rfl⟩
    · -- An operand that is refused becomes an error node.
      show r.Follows 7
      rcases h.eq_or_isPrimary with rfl | hr
      · exact hargument
      · refine .inr ?_
        rw [(Expression.of_isPrimary hr).1]
        decide
    · exact (h.still.operator?_eq _).trans hend
  case h_12 => exact .throw _
  all_goals
    rename_i hk
    rw [hk] at hinfo
    cases hinfo
    exact .pure ⟨.intro hargument rfl hend, rfl⟩

/-- **An operand** is complete. -/
theorem operand_ranks (hr : g.Ranks root) (htable : root.table = standard) :
    Ensures root (operand g) ctx s (fun e t => e.Settled ctx t
      ∧ (e.isPrimary = true ∨ e.isPrefixForm = true)) := by
  have hprimary : Ensures root (primary g) ctx s (fun e t =>
      e.Settled ctx t ∧ (e.isPrimary = true ∨ e.isPrefixForm = true)) :=
    (primary_ensures hg).mono (fun _ _ _ h =>
      ⟨.of_isPrimary h.2, .inl h.2⟩)
  refine .look s.current rfl (.look ctx rfl (.of_good fun hctx _ => ?_))
  rw [hctx.table_eq, htable]
  split
  · rename_i info hinfo
    refine .ite (fun _ => ?_) (fun _ => hprimary)
    have hlevel := standard_level_le hinfo
    have htighter := Precedence.tighter_eq hlevel
    refine (Ensures.lift (advance_ensures
      (isEof_of_beforeOperand? hinfo)).discard).bind fun _ t _ _ => ?_
    refine (hr.expression _ ?_).bind fun argument u _ h => ?_
    · rw [htighter]
      exact Int.add_le_add_right hlevel 1
    have hargument : argument.Follows info.precedence.level := by
      have hfollows := h.1
      rwa [htighter, Int.add_sub_cancel] at hfollows
    exact (applyBefore_ranks hg hinfo hargument h.2).mono
      (fun _ _ _ h => ⟨h.1, .inr h.2⟩)
  · exact hprimary

end Before

/-! ## Operators behind an operand -/

section After

variable {token : Token}

/-- **A sign behind an operand** makes an operation of its own level,
which is complete. -/
theorem applyAfter_ranks (hg : g.Sound root P)
    (hinfo : standard.afterOperand? token.kind = some info)
    (hleft : left.EndsBefore info.precedence.level) :
    Ensures root (applyAfter g left token) ctx s (fun e t =>
      e.Settled ctx t ∧ e.level = info.precedence.level) := by
  unfold applyAfter
  dsimp only
  split <;> rename_i hk
  case h_6 => exact .throw _
  all_goals
    rw [hk] at hinfo
    cases hinfo
  · exact .pure ⟨.of_reach (hleft.le_level (Int.le_refl _)) rfl, rfl⟩
  · exact .pure ⟨.of_reach (hleft.le_level (Int.le_refl _)) rfl, rfl⟩
  · refine hg.arguments.bind fun arguments t _ _ => ?_
    refine .look (t.spanFrom left.span.start) rfl (.pure ⟨?_, rfl⟩)
    exact .of_reach (hleft.opens (by decide)) rfl
  · refine (propertyName_ensures P).bind fun property t _ _ => .pure ⟨?_, rfl⟩
    exact .of_reach (hleft.opens (by decide)) rfl
  · refine (hg.bracketed _ _).bind fun index t _ _ => ?_
    refine (expectPunctuator_ensures .rBracket).discard.bind
      fun _ u _ _ => ?_
    refine .look (u.spanFrom left.span.start) rfl (.pure ⟨?_, rfl⟩)
    exact .of_reach (hleft.opens (by decide)) rfl

end After

/-! ## Operators between two operands -/

section Between

variable {p : Punctuator}

/-- The entries of the assignments that compute. -/
theorem standard_compoundOperator? {operator : CompoundOperator}
    (hoperator : compoundOperator? p = some operator)
    (hinfo : standard.afterOperand? (.punctuator p) = some info) :
    info = ⟨.assignment, .right, .between⟩ := by
  cases p <;> cases hoperator <;> exact (Option.some.inj hinfo).symm

/-- **The entries of the operators between two operands.** They group to
the left. -/
theorem standard_binaryOperator? {operator : BinaryOperator}
    (hoperator : binaryOperator? p = some operator)
    (hinfo : standard.afterOperand? (.punctuator p) = some info) :
    info = ⟨⟨operator.level⟩, .left, .between⟩ := by
  cases p <;> cases hoperator <;> exact (Option.some.inj hinfo).symm

/-- Of the reserved words there are two between two operands. -/
theorem standard_word {kind : TokenKind}
    (hinfo : standard.afterOperand? kind = some info)
    (hmark : ∀ p, kind ≠ .punctuator p)
    (hword : kind ≠ .keyword .kwInstanceof) :
    info = ⟨.relational, .left, .between⟩ := by
  cases kind
  case punctuator p => exact absurd rfl (hmark p)
  case keyword k =>
    cases k
    case kwInstanceof => exact absurd rfl hword
    all_goals cases hinfo
    rfl
  all_goals cases hinfo

variable (hr : g.Ranks root)

include hr

/-- **Two operands of an operator that groups to the left.** -/
theorem binaryOf_ranks (operator : BinaryOperator)
    (hleft : left.EndsBefore operator.level) :
    Ensures root (do
      let second ← g.expression (Precedence.tighter ⟨operator.level⟩)
      return binaryOf operator left second) ctx s (fun e t =>
        e.Settled ctx t ∧ e.level = operator.level) := by
  obtain ⟨_, hle⟩ := operator.level_bounds
  rw [Precedence.tighter_eq (p := ⟨operator.level⟩)
    (show operator.level ≤ 13 by omega)]
  refine (hr.expression ⟨operator.level + 1⟩ ?_).bind fun second t _ h => ?_
  · show operator.level + 1 ≤ 14
    omega
  have hsecond : second.Follows operator.level := by
    have hfollows := h.1
    rwa [Int.add_sub_cancel] at hfollows
  refine .pure ⟨.intro ⟨hleft.le_level (by omega), ?_⟩ rfl h.2, rfl⟩
  exact hsecond.lt_level (by omega)

/-- **A mark between two operands** makes an operation of its own level,
which is complete. -/
theorem applyMark_ranks (hg : g.Sound root P) (token : Token)
    (hinfo : standard.afterOperand? (.punctuator p) = some info)
    (hleft : left.EndsBefore info.precedence.level) :
    Ensures root (applyMark g left token p info.rightOperand) ctx s
      (fun e t => e.Settled ctx t ∧ e.level = info.precedence.level) := by
  unfold applyMark
  dsimp only
  split
  · cases hinfo
    refine (hr.expression .comma (by decide)).bind fun second t _ h => ?_
    exact .pure ⟨.intro (hleft.lt_level (by decide)) rfl h.2, rfl⟩
  · cases hinfo
    refine (Ensures.lift (assignmentTarget_ensures hg left)).bind
      fun target t _ _ => ?_
    refine (hr.expression .assignment (by decide)).bind fun value u _ h => ?_
    exact .pure ⟨.intro (h.1.lt_level (by decide)) rfl h.2, rfl⟩
  · cases hinfo
    refine hr.consequent.bind fun consequent t _ hconsequent => ?_
    refine (expectPunctuator_ensures .colon).discard.bind
      fun _ u _ _ => ?_
    refine (hr.expression .choice (by decide)).bind
      fun alternate v _ h => .pure ⟨.intro ⟨?_, ?_, ?_⟩ rfl h.2, rfl⟩
    · exact hleft.lt_level (by decide)
    · exact hconsequent.lt_level (by decide)
    · exact h.1.lt_level (by decide)
  · split
    · rename_i operator hoperator
      cases standard_compoundOperator? hoperator hinfo
      refine (Ensures.lift (assignmentTarget_ensures hg left)).bind
        fun target t _ _ => ?_
      refine (hr.expression .assignment (by decide)).bind
        fun value u _ h => ?_
      exact .pure ⟨.intro (h.1.lt_level (by decide)) rfl h.2, rfl⟩
    · split
      · rename_i operator hoperator
        cases standard_binaryOperator? hoperator hinfo
        exact binaryOf_ranks hr operator hleft
      · exact .throw _

end Between

/-! ## The fold -/

section Fold

variable (hg : g.Sound root P) (hr : g.Ranks root)

include hg hr

/-- **An operator folded onto a complete expression** makes a complete
expression of its own level. -/
theorem applyOperator_ranks
    (hinfo : standard.afterOperand? s.current.kind = some info)
    (heof : s.current.isEof = false)
    (hleft : left.EndsBefore info.precedence.level) :
    Ensures root (applyOperator g left info) ctx s (fun e t =>
      e.Settled ctx t ∧ e.level = info.precedence.level) := by
  refine (Ensures.lift (advance_ensures heof)).bind
    fun token t _ htook => ?_
  rw [← htook.token_eq] at hinfo
  refine .ite (fun _ => applyAfter_ranks hg hinfo hleft) (fun _ => ?_)
  split
  · rename_i hk
    rw [hk] at hinfo
    exact applyMark_ranks hr hg token hinfo hleft
  · rename_i hk
    rw [hk] at hinfo
    cases hinfo
    exact binaryOf_ranks hr .instanceOf hleft
  · rename_i hmark hword
    cases standard_word hinfo hmark hword
    exact binaryOf_ranks hr .isIn hleft

/-- **Every expression of a fold is complete**, and none is looser than
its limit. -/
theorem settled_of_folded (htable : root.table = standard)
    (hctx : root.Within ctx) (hs : s.Good root)
    (h : Folded g min ctx s e t) :
    t.Good root ∧ e.Settled ctx t
      ∧ (min.level ≤ 14 → e.Follows (min.level - 1)) := by
  -- On the turns of the fold: that the expression so far is complete is
  -- what the next operator needs of it.
  induction h with
  | operand run =>
    obtain ⟨hst, hsettled, hform⟩ :=
      (operand_ranks hg hr htable).of_run hctx hs run
    refine ⟨hst.good, hsettled, fun hmin => ?_⟩
    rcases hform with hprimary | hprefix
    · have hlevel := (Expression.of_isPrimary hprimary).1
      exact .inr (by omega)
    · exact .inl hprefix
  | operator _ found run ih =>
    obtain ⟨ht, hleft, _⟩ := ih
    obtain ⟨_, _, hinfo, hle⟩ := State.operator?_eq_some_iff.1 found
    rw [hctx.table_eq, htable] at hinfo
    obtain ⟨htu, hsettled, hlevel⟩ := (applyOperator_ranks hg hr hinfo
      (isEof_of_operator? found) (hleft.endsBefore found)).of_run hctx ht run
    exact ⟨htu.good, hsettled, fun _ => .inr (by omega)⟩

end Fold

end Parse

/-! ## All levels -/

open Parse

/-- **A grammar of any number of levels** reads expressions that bind as
they should. -/
theorem Grammar.levels_ranks (htable : root.table = .standard)
    (hroot : byteLength root.source < root.turns) (n : Nat) :
    (levels n).Ranks root := by
  induction n with
  | zero => exact ⟨fun _ _ => tooDeep_ensures, tooDeep_ensures⟩
  | succ n ih =>
    have hg := levels_sound root n
    have hexpression : ∀ (min : Precedence), min.level ≤ 14 →
        ∀ {ctx : Context} {s : State},
        Ensures root (expressionFrom (levels n) min) ctx s (fun e t =>
          e.Follows (min.level - 1) ∧ t.operator? ctx min = none) := by
      intro min hmin ctx s
      refine .of_good (fun hctx hs => ?_)
      refine (expressionFrom_ensures hg Folded.traces min).mono
        fun e t _ h => ⟨?_, h.2.2 hroot⟩
      exact (settled_of_folded hg ih htable hctx hs h.2.1).2.2 hmin
    refine ⟨fun min hmin _ _ => (hexpression min hmin).guarded
      (fun _ _ => id), ?_⟩
    exact inBrackets_ensures (ih.expression .assignment (by decide))
      (fun _ _ h => h.1)

/-- **An expression of a tree** has operands that bind as tightly as they
must. -/
theorem Expression.Traces.ranked (htable : root.table = .standard)
    (hroot : byteLength root.source < root.turns) (h : e.Traces root) :
    e.Ranked := by
  rcases h with hprimary | ⟨n, _, ctx, _, t, hctx, hs, hfolded⟩
  · exact (of_isPrimary hprimary).2.1
  · exact (settled_of_folded (Grammar.levels_sound root n)
      (Grammar.levels_ranks htable hroot n) htable hctx hs
      hfolded).2.1.ranked

end ScriptTree
