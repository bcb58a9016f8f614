import ScriptTree.Proofs.Break.Ending
import ScriptTree.Proofs.Mirror.Operand
import ScriptTree.Proofs.Seat.Class

/-!
# The superclass's view of an object

`super` is read only where the next token begins a call or an access. No
operator of the standard table binds more tightly than these two, so the
fold goes on with that token, whatever it was asked for, unless a line
break that matters stands before it. Then `super` is left alone.
-/

namespace ScriptTree

variable {root ctx : Context} {g : Grammar} {s t last : State}
  {min : Precedence} {span : Span}

namespace OperatorTable

/-- **No grammar asks for more than a call**, with the standard table. -/
theorem Asks.level_le (h : standard.Asks min) : min.level ≤ 12 := by
  have hbefore : ∀ e ∈ standard.entries, e.2.fixity = .before →
      e.2.precedence.tighter.level ≤ 12 := by decide
  have hbetween : ∀ e ∈ standard.entries, e.2.fixity ≠ .after →
      e.2.rightOperand.level ≤ 12 := by decide
  cases h with
  | lowest | assignment | parent => decide
  | before found fixity_eq =>
    obtain ⟨entry, hentry, rfl⟩ := exists_entry found
    exact hbefore entry hentry fixity_eq
  | between found fixity_ne =>
    rcases Option.or_eq_some_iff.1 found with found | ⟨_, found⟩ <;>
    · obtain ⟨entry, hentry, rfl⟩ := exists_entry found
      exact hbetween entry hentry fixity_ne

end OperatorTable

open Expression

namespace Parse

/-- No slash begins a call or an access. -/
theorem isSlash_of_opensAccess {token : Token}
    (h : opensAccess token = true) : token.isSlash = false := by
  simp only [opensAccess, Token.isPunctuator, Bool.or_eq_true,
    decide_eq_true_eq] at h
  rcases h with (hk | hk) | hk <;>
    simp [Token.isSlash, Token.isPunctuator, hk]

/-- **A token that begins a call or an access** is an operator behind
everything that can be asked for, unless a line break ends it. -/
theorem operator?_of_opensAccess (htable : ctx.table = .standard)
    (hmin : min.level ≤ 12) (hopens : opensAccess s.current = true)
    (hnone : s.operator? ctx min = none) : s.newlineBefore = true := by
  have hkind : ∃ info, ctx.table.afterOperand? s.current.kind = some info
      ∧ 12 ≤ info.precedence.level
      ∧ s.current.isKeyword .kwIn = false := by
    rw [htable]
    simp only [opensAccess, Token.isPunctuator, Bool.or_eq_true,
      decide_eq_true_eq] at hopens
    rcases hopens with (hk | hk) | hk <;>
    · rw [Token.isKeyword, hk]
      exact ⟨_, rfl, by decide, rfl⟩
  obtain ⟨info, hinfo, hlevel, hin⟩ := hkind
  by_contra hline
  have hfound : s.operator? ctx min = some info := by
    refine State.operator?_eq_some_iff.2 ⟨?_, ?_, hinfo, by omega⟩
    · rw [Bool.eq_false_iff.2 hline, Bool.false_and]
    · rw [hin, Bool.false_and]
  rw [hnone] at hfound
  cases hfound

/-- **What is answered from a state** comes from the token there, if it is
`super`, and the next token begins a call or an access. -/
def ReadsSuper (p : Parse Expression) (ctx : Context) (s : State) : Prop :=
  ∀ span t, p ctx s = (.ok (.super span), t) →
    s.current.kind = .keyword .kwSuper ∧ s.current.span = span
      ∧ t = s.bump ctx ∧ opensAccess t.current = true

/-- What is never `super` reads it only so. -/
theorem ReadsSuper.of_gives {p : Parse Expression}
    (hp : Gives (fun _ => True) p (fun e => e.isClassOrSuper = false)) :
    ReadsSuper p ctx s :=
  fun _ t hrun => nomatch hp ctx s _ t trivial hrun

/-- Looking at the state changes nothing. -/
theorem ReadsSuper.look {α : Type} {p : Parse α} {f : α → Parse Expression}
    (a : α) (hp : p ctx s = (.ok a, s)) (hf : ReadsSuper (f a) ctx s) :
    ReadsSuper (p >>= f) ctx s := by
  intro span t hrun
  rw [bind_run, hp] at hrun
  exact hf span t hrun

theorem keywordOperand_readsSuper {k : Keyword}
    (hk : s.current.kind = .keyword k) :
    ReadsSuper (keywordOperand g k) ctx s := by
  by_cases hsuper : k = .kwSuper
  · subst hsuper
    intro span t hrun
    rw [show keywordOperand g .kwSuper = superOperand from rfl,
      superOperand_run] at hrun
    split at hrun
    · rename_i hopens
      cases hrun
      exact ⟨hk, rfl, rfl, hopens⟩
    · exact nomatch congrArg Prod.fst hrun
  by_cases hclass : k = .kwClass
  · subst hclass
    intro span t hrun
    obtain ⟨c, u, _, hrun⟩ := of_bind_run hrun
    cases hrun
  exact .of_gives (keywordOperand_isClassOrSuper hsuper hclass)

theorem primary_readsSuper : ReadsSuper (primary g) ctx s := by
  refine .look s.current rfl ?_
  split
  case h_1 =>
    exact .of_gives (nameOperand_isOperand.mono
      fun _ h => h.isClassOrSuper_eq_false)
  case h_8 =>
    exact .of_gives (parenthesizedOrArrow_isOperand.mono
      fun _ h => h.isClassOrSuper_eq_false)
  case h_9 | h_10 =>
    exact .of_gives (.skip fun _ => .skip fun _ => .skip fun _ =>
      .skip fun _ => .pure rfl)
  case h_11 hk => exact keywordOperand_readsSuper hk
  case h_12 => exact .of_gives (unexpected_gives _)
  all_goals exact .of_gives (.skip fun _ => .pure rfl)

theorem operand_readsSuper : ReadsSuper (operand g) ctx s := by
  refine .look s.current rfl (.look ctx rfl ?_)
  split
  · split
    · exact .of_gives (.skip fun _ => .skip fun _ =>
        (applyBefore_isPrimary _ _).mono
          fun _ h => isClassOrSuper_of_isPrimary h)
    · exact primary_readsSuper
  · exact primary_readsSuper

end Parse

open Parse Node State

/-- **Where `super` has been folded** it is the operand the fold began
with. -/
theorem Folded.opens_of_super (h : Folded g min ctx s (.super span) t) :
    s.current.kind = .keyword .kwSuper ∧ s.current.span = span
      ∧ t = s.bump ctx ∧ opensAccess t.current = true := by
  cases h with
  | operand run => exact operand_readsSuper span t run
  | operator _ _ run =>
    exact nomatch applyOperator_isPrimary (C := fun _ => True) _ _ ctx _ _ t
      trivial run

/-! ## Left alone -/

/-- **`super` is left alone** between two tokens: the one that was read for
it, and one that begins a call or an access, with a line break between
them that is in no comment. -/
def LeftAlone (source : List Char) (comments : List Comment)
    (tokens : List Token) (span : Span) : Prop :=
  ∃ front last next back, tokens = front ++ last :: next :: back
    ∧ last.kind = .keyword .kwSuper ∧ last.span = span
    ∧ opensAccess next = true
    ∧ HasBreak source comments span.stop next.span.start

/-- **Where the fold ends with `super`** a line break has ended it. -/
theorem Folded.leftAlone (htable : root.table = .standard)
    (hmin : min.level ≤ 12) (hctx : root.Within ctx) (hs : s.Reached root)
    (hst : Acts root s t) (hfold : Folded g min ctx s (.super span) t)
    (hlast : Acts root t last) (hnone : t.operator? ctx min = none) :
    LeftAlone root.source last.comments.toList last.read span := by
  obtain ⟨hkind, rfl, rfl, hopens⟩ := hfold.opens_of_super
  have heof := Token.isSilent_of_kind_keyword hkind |>.isEof_eq_false
  have hreached := hs.acts hst
  have htook : Took s s.current (s.bump ctx) :=
    (Action.advance_ensures heof hctx hs.good).2
  have htaken : (s.bump ctx).taken = s.known :=
    (Action.advance_accounts heof hctx hs).2.2
  obtain ⟨front, now, next, back, hread, hnow, -, -, hnext, hslash⟩ :=
    hs.exists_read_eq hst htook.past hlast
  rw [htaken] at hnow
  obtain rfl := Option.some.inj hnow
  refine ⟨front, _, next, back, hread, hkind, rfl, ?_, ?_⟩
  · rw [hslash (isSlash_of_opensAccess hopens)]
    exact hopens
  have hbreak := operator?_of_opensAccess (hctx.table_eq.trans htable) hmin
    hopens hnone
  obtain ⟨a, b, hsource, hlo, hhi, hcomments⟩ :=
    hreached.exists_lineBreak hbreak
  rw [htook.consumedTo_eq] at hlo
  refine ⟨a, b, hsource, hlo, hnext ▸ hhi, fun c hc => ?_⟩
  rcases Acts.comments hlast hreached.good c (Array.mem_toList_iff.1 hc) with
    hc | hbehind
  · exact hcomments c (Array.mem_toList_iff.2 hc)
  · exact .inl (Nat.lt_trans hhi hbehind)

/-- **An expression that is left alone**, if it is `super`. -/
def Expression.Alone (source : List Char) (comments : List Comment)
    (tokens : List Token) (e : Expression) : Prop :=
  ∀ span, e = .super span → LeftAlone source comments tokens span

theorem Expression.alone_error (source : List Char)
    (comments : List Comment) (tokens : List Token) (node : ErrorNode) :
    (Expression.error node).Alone source comments tokens :=
  fun _ h => nomatch h

/-- **`super` is left alone** in every seat but that of what is called or
accessed. -/
theorem alone_settles (source : List Char) :
    Expression.Settles (.ofSource source .standard .standard)
      (runScript source .standard .standard).2 (fun seat e =>
        seat ≠ .accessed → e.Alone source (parse source).program.comments
          (readTokens source)) where
  error node _ := alone_error _ _ _ node
  name _ _ _ h := nomatch h
  plain h _ := h (by decide)
  exported hlike _ span he := by
    subst he
    cases hlike
  assigned _ _ _ h _ := assignmentTarget_of (P := Expression.Alone _ _ _)
    (h (by decide)) (alone_error _ _ _)
  deleted _ _ _ h _ := deleteTarget_of (P := Expression.Alone _ _ _)
    (h (by decide)) (alone_error _ _ _)
  folded := by
    rintro n min ctx s t _ hctx hs hst hfold hlast hseat span rfl
    exact absurd (if_pos hfold.opens_of_super.2.2.2) hseat
  whole := by
    rintro n min hmin ctx s t _ hctx hs hst hfold hlast hnone - span rfl
    exact hfold.leftAlone rfl (OperatorTable.Asks.level_le hmin) hctx hs
      hst hlast (hnone (Nat.lt_succ_self _))

/-- **`super` is called or accessed, or it is left alone** before a line
break: then the next token begins a call or an access all the same. -/
theorem parse_super (source : List Char) {n : Node} {span : Span}
    (hn : n ∈ (Node.program (parse source).program).all)
    (hc : .expression (.super span) ∈ n.children) :
    n.accessed? = some (.super span)
      ∨ LeftAlone source (parse source).program.comments
        (readTokens source) span := by
  have hseated := parseWith_seated .standard .standard source
    (alone_settles source) n hn
  obtain ⟨seat, halone, haccessed, -⟩ := hseated.seat hc
  by_cases hseat : seat = .accessed
  · exact .inl (haccessed hseat)
  · exact .inr (halone hseat span rfl)

/-- Whether a node is `super`. -/
def Node.isSuper : Node → Bool
  | expression (.super _) => true
  | _ => false

/-- `super` in a statement of its own, and no problem. -/
theorem parse_super_alone :
    let source := "super\n[0]".toList
    (parse source).diagnostics = []
      ∧ ∃ n ∈ (Node.program (parse source).program).all, ∃ span,
        .expression (.super span) ∈ n.children
          ∧ LeftAlone source (parse source).program.comments
            (readTokens source) span := by
  intro source
  have hany : (Node.program (parse source).program).all.any (fun n =>
      n.accessed?.isNone && n.children.any Node.isSuper) = true := by
    decide +kernel
  obtain ⟨n, hn, hany⟩ := List.any_eq_true.1 hany
  obtain ⟨hnone, hany⟩ := Bool.and_eq_true_iff.1 hany
  obtain ⟨m, hm, hsuper⟩ := List.any_eq_true.1 hany
  unfold Node.isSuper at hsuper
  split at hsuper
  · rename_i span
    refine ⟨by decide +kernel, n, hn, span, hm, ?_⟩
    refine (parse_super source hn hm).resolve_left fun haccessed => ?_
    rw [Option.isNone_iff_eq_none.1 hnone] at haccessed
    cases haccessed
  · cases hsuper

end ScriptTree
