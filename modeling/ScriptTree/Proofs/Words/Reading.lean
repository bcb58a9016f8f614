import ScriptTree.Proofs.Parse.Rank
import ScriptTree.Proofs.Words.Piece

/-!
# Reading an expression from words

Words in a row need not be an expression. What an expression takes of them
is a front of theirs: it is made of these words, and what is next is nothing
it could have gone on with. Or it fails, where an operand was expected and
there is none. Either way the words say whether they are an expression or
not, and what is behind them does not matter (`Parse.ReadsFront`).

The proof goes along the fold, as it does for chains of operators, but with
failures.
-/

namespace ScriptTree

open Word Parse

/-! ## The standard table on words -/

section Table

variable {w : Word}

/-- No operand is an operator. -/
theorem OperatorTable.find?_of_isOperand (table : OperatorTable)
    (h : w.isOperand = true) (fixity : Fixity) :
    table.find? w.kind fixity = none := by
  unfold Word.isOperand at h
  split at h
  · rename_i hkind
    rw [hkind]
    rfl
  · rename_i hkind
    rw [hkind]
    rfl
  · rename_i hkind
    rw [hkind]
    rfl
  · exact nomatch h

theorem OperatorTable.standard_beforeOperand?_sign {operator : UnaryOperator}
    (h : w.sign? = some operator) :
    standard.beforeOperand? w.kind = some ⟨.sign, .right, .before⟩ := by
  unfold Word.sign? at h
  split at h
  · rename_i hkind
    rw [hkind]
    rfl
  · rename_i hkind
    rw [hkind]
    rfl
  · exact nomatch h

theorem OperatorTable.standard_afterOperand?_operator
    {operator : BinaryOperator} (h : w.operator? = some operator) :
    standard.afterOperand? w.kind
      = some ⟨⟨operator.level⟩, .left, .between⟩ := by
  unfold Word.operator? at h
  split at h
  · exact nomatch h
  · rename_i p _ hkind
    rw [hkind]
    cases p <;> cases h <;> rfl
  · exact nomatch h

/-- **A mark no operand begins with**: it is neither a bracket nor a slash
nor an operator before an operand. -/
def Punctuator.opensNothing (p : Punctuator) : Bool :=
  (OperatorTable.standard.beforeOperand? (.punctuator p)).isNone
    && match p with
      | .slash | .slashEq | .lParen | .lBracket | .lBrace => false
      | _ => true

/-- An operator that is no sign opens nothing. -/
theorem Word.opensNothing_of_operator? {operator : BinaryOperator}
    (h : w.operator? = some operator) (hsign : w.sign? = none) :
    ∃ p, w.kind = .punctuator p ∧ p.opensNothing = true := by
  unfold Word.operator? at h
  unfold Word.sign? at hsign
  split at h
  · exact nomatch h
  · rename_i p hslash hkind
    rw [hkind] at hsign
    refine ⟨p, hkind, ?_⟩
    cases p with
    | slash => exact absurd rfl hslash
    | plus | minus => simp at hsign
    | _ => first | rfl | exact nomatch h
  · exact nomatch h

end Table

/-! ## One operand -/

namespace Parse

open ScriptTree.Action

variable {g : Grammar} {ctx : Context} {s : State}
  {found : Array Diagnostic} {start : Nat} {w : Word} {ws : List Word}

theorem operand_of_isOperand (hs : s.AtWords found start (w :: ws))
    (hw : w.isOperand = true) (hplain : ∀ v ∈ ws, v.isPlain = true) :
    operand g ctx s = (.ok (w.operand start), s.bump ctx) := by
  obtain ⟨hkind, htext, hspan, -⟩ : s.current.Is w start := hs.current
  have hbefore : ctx.table.beforeOperand? s.current.kind = none := by
    rw [hkind]
    exact ctx.table.find?_of_isOperand hw .before
  have hliteral (kind : LiteralKind) :
      (do return .literal (← literal kind) : Parse Expression) ctx s
        = (.ok (.literal ⟨kind, w.spelling, w.span start⟩), s.bump ctx) := by
    rw [← htext, ← hspan]
    rfl
  unfold Word.isOperand at hw
  unfold Word.operand
  split at hw
  · -- What is behind a name makes no function of it.
    rename_i hname
    obtain ⟨hkeyword, hparen, harrow⟩ := kindOf_ne hplain
    have hpeek := hs.scanner.peek
    have hplainName : s.AtPlainName :=
      { kind_eq := hkind.trans hname
        function_ne := hpeek ▸ hkeyword _
        lParen_ne := hpeek ▸ hparen
        arrow_ne := hpeek ▸ harrow
        param_ne := fun _ => by
          rw [hs.scanner.peekSecond]
          exact (kindOf_ne fun v hv => hplain v (List.mem_of_mem_tail hv)).2.2 }
    rw [operand_of_name hplainName, htext, hspan, hname]
  · rename_i hnumber
    rw [operand_eq_primary hbefore, primary, bind_run, liftM_current_run]
    dsimp only
    rw [hkind, hnumber]
    exact hliteral .number
  · rename_i hstring
    rw [operand_eq_primary hbefore, primary, bind_run, liftM_current_run]
    dsimp only
    rw [hkind, hstring]
    exact hliteral .string
  · exact absurd hw Bool.false_ne_true

/-- **A sign** takes an operand of its own. -/
theorem operand_of_sign {operator : UnaryOperator}
    (htable : ctx.table = .standard) (hs : s.AtWords found start (w :: ws))
    (hsign : w.sign? = some operator) :
    operand g ctx s = (do
      let e ← g.expression (Precedence.tighter .sign)
      return Expression.unary operator e ⟨start, e.span.stop⟩) ctx
        (s.bump ctx) := by
  obtain ⟨hkind, -, hspan, -⟩ : s.current.Is w start := hs.current
  have hadvance : (discard advance : Parse Unit) ctx s
      = (.ok (), s.bump ctx) := rfl
  unfold operand
  rw [bind_run, liftM_current_run]
  dsimp only
  rw [bind_run, read_run]
  dsimp only
  rw [htable, hkind, OperatorTable.standard_beforeOperand?_sign hsign]
  dsimp only
  rw [if_pos rfl, bind_run, hadvance]
  have happly : applyBefore s.current = fun e =>
      (return .unary operator e ⟨start, e.span.stop⟩ : Parse Expression) := by
    funext e
    have hstart : s.current.span.start = start := congrArg Span.start hspan
    unfold applyBefore
    dsimp only
    rw [hkind, hstart]
    unfold Word.sign? at hsign
    split at hsign
    · rename_i hplus
      rw [hplus, ← Option.some.inj hsign]
    · rename_i hminus
      rw [hminus, ← Option.some.inj hsign]
    · exact nomatch hsign
  dsimp only
  rw [happly]

/-- **Where an operand is expected** and none begins, it is asked for. -/
theorem operand_of_opensNothing (htable : ctx.table = .standard)
    {p : Punctuator} (hkind : s.current.kind = .punctuator p)
    (hp : p.opensNothing = true) :
    operand g ctx s
      = (.error (.ofToken "expression" s.current), s) := by
  obtain ⟨hbefore, hopens⟩ := Bool.and_eq_true_iff.1 hp
  rw [operand_eq_primary, primary, bind_run, liftM_current_run]
  · dsimp only
    rw [hkind]
    cases p <;> first | rfl | exact absurd hopens Bool.false_ne_true
  · rw [htable, hkind]
    exact Option.isNone_iff_eq_none.1 hbefore

end Parse

/-! ## What is taken of some words -/

/-- **Whether an operator is too loose to go on with**, if one is next. -/
def Word.Stops (min : Precedence) (ws : List Word) : Prop :=
  ∀ w ∈ ws.head?, ∀ o ∈ w.operator?, o.level < min.level

/-- **What a production takes of some words**, with others behind them. It
makes an expression of a front of theirs, and what is left of them closes
the expression if they all do; or it asks for an operand, and they do not
close anything. It finds no problem. -/
def Parse.ReadsFront (p : Parse Expression) (ctx : Context) (s : State)
    (found : Array Diagnostic) (start : Nat) (ws tail : List Word)
    (closed : Bool) (Q : List Word → Prop) : Prop :=
  (∃ e t done rest, ws = done ++ rest ∧ p ctx s = (.ok e, t)
    ∧ t.AtWords found (start + width done) (rest ++ tail)
    ∧ e.MadeOf start done ∧ closed = closes false rest ∧ Q rest)
  ∨ ∃ t done rest, ws = done ++ rest
    ∧ p ctx s = (.error (.ofToken "expression" t.current), t)
    ∧ t.AtWords found (start + width done) (rest ++ tail)
    ∧ closed = false

/-- **A grammar that reads words**, fewer of them than a bound. -/
def Grammar.ReadsFronts (g : Grammar) (n : Nat) : Prop :=
  ∀ {ctx : Context} {s : State} {found : Array Diagnostic} {start : Nat}
    {ws tail : List Word} (min : Precedence), ws.length < n →
    ctx.table = .standard → ws.length < ctx.turns → 0 ≤ min.level →
    (∀ w ∈ ws, w.isPiece = true) → EndsItem tail →
    s.AtWords found start (ws ++ tail) →
    Parse.ReadsFront (g.expression min) ctx s found start ws tail
      (closes true ws) (Stops min)

namespace Parse

open ScriptTree.Action

variable {g : Grammar} {n : Nat} {ctx : Context} {s t : State}
  {found : Array Diagnostic} {start : Nat} {w : Word}
  {ws tail : List Word} {min : Precedence}

namespace ReadsFront

variable {p q : Parse Expression} {f : Expression → Parse Expression}
  {closed : Bool} {Q Q' : List Word → Prop}

/-- Only the run counts. -/
theorem congr (hrun : p ctx s = q ctx t)
    (h : q.ReadsFront ctx t found start ws tail closed Q) :
    p.ReadsFront ctx s found start ws tail closed Q := by
  unfold ReadsFront
  rw [hrun]
  exact h

theorem mono (h : p.ReadsFront ctx s found start ws tail closed Q)
    (hQ : ∀ rest, Q rest → Q' rest) :
    p.ReadsFront ctx s found start ws tail closed Q' := by
  rcases h with ⟨e, t, done, rest, hws, hrun, ht, he, hclosed, hrest⟩ | h
  · exact .inl ⟨e, t, done, rest, hws, hrun, ht, he, hclosed, hQ rest hrest⟩
  · exact .inr h

/-- **Going on** with what has been made, and with what is left. -/
theorem bind (hp : p.ReadsFront ctx s found start ws tail closed Q)
    (hf : ∀ {e t done rest}, ws = done ++ rest →
      t.AtWords found (start + width done) (rest ++ tail) →
      e.MadeOf start done → closed = closes false rest → Q rest →
      (f e).ReadsFront ctx t found start ws tail closed Q') :
    ReadsFront (p >>= f) ctx s found start ws tail closed Q' := by
  rcases hp with ⟨e, t, done, rest, hws, hrun, ht, he, hclosed, hQ⟩ |
    ⟨t, done, rest, hws, hrun, ht, hclosed⟩
  · refine congr (q := f e) (t := t) ?_ (hf hws ht he hclosed hQ)
    rw [bind_run, hrun]
  · refine .inr ⟨t, done, rest, hws, ?_, ht, hclosed⟩
    rw [bind_run, hrun]

/-- **What is taken behind some words** may be put together with them. No
more is left than there was behind them. -/
theorem behind (make : Expression → Expression) (front : List Word)
    (hp : p.ReadsFront ctx s found (start + width front) ws tail closed Q)
    (hmake : ∀ {e done}, e.MadeOf (start + width front) done →
      (make e).MadeOf start (front ++ done)) :
    ReadsFront (do return make (← p)) ctx s found start (front ++ ws) tail
      closed (fun rest => rest.length ≤ ws.length) := by
  have hplace (done : List Word) : start + width front + width done
      = start + width (front ++ done) := by
    rw [width_append, Nat.add_assoc]
  rcases hp with ⟨e, t, done, rest, rfl, hrun, ht, he, hclosed, -⟩ |
    ⟨t, done, rest, rfl, hrun, ht, hclosed⟩
  · refine .inl ⟨make e, t, front ++ done, rest, by simp, ?_, ?_, hmake he,
      hclosed, by simp⟩
    · rw [bind_run, hrun]
      rfl
    · rwa [hplace] at ht
  · refine .inr ⟨t, front ++ done, rest, by simp, ?_, ?_, hclosed⟩
    · rw [bind_run, hrun]
    · rwa [hplace] at ht

/-- A production that counts as a level. -/
theorem guarded (hp : p.ReadsFront ctx s.enter found start ws tail closed Q) :
    (guarded p).ReadsFront ctx s found start ws tail closed Q := by
  rcases hp with ⟨e, t, done, rest, hws, hrun, ht, hrest⟩ |
    ⟨t, done, rest, hws, hrun, ht, hclosed⟩
  · refine .inl ⟨e, t.leave, done, rest, hws, ?_, ht.leave, hrest⟩
    rw [guarded_run, hrun]
  · refine .inr ⟨t.leave, done, rest, hws, ?_, ht.leave, hclosed⟩
    rw [guarded_run, hrun]
    rfl

end ReadsFront

/-! ## The operator that is next -/

/-- Behind an operand nothing is folded. -/
theorem operator?_of_isOperand (hs : s.AtWords found start (w :: ws))
    (hw : w.isOperand = true) : s.operator? ctx min = none := by
  refine Option.eq_none_iff_forall_ne_some.2 fun info hinfo => ?_
  obtain ⟨-, -, hafter, -⟩ := State.operator?_eq_some_iff.1 hinfo
  rw [hs.kind_eq, OperatorTable.afterOperand?] at hafter
  rw [show kindOf (w :: ws) = w.kind from rfl,
    ctx.table.find?_of_isOperand hw, ctx.table.find?_of_isOperand hw] at hafter
  exact nomatch hafter

/-- At the end of an item nothing is folded that is not too loose. -/
theorem operator?_of_endsItem (htable : ctx.table = .standard)
    (hmin : 0 ≤ min.level) (hs : s.AtWords found start tail)
    (htail : EndsItem tail) : s.operator? ctx min = none := by
  refine Option.eq_none_iff_forall_ne_some.2 fun info hinfo => ?_
  obtain ⟨-, -, hafter, hle⟩ := State.operator?_eq_some_iff.1 hinfo
  rw [htable, hs.kind_eq] at hafter
  rcases htail.kindOf_eq with hcomma | hcloser
  · rw [hcomma] at hafter
    obtain rfl := Option.some.inj hafter
    exact absurd (Int.le_trans hmin hle) (by decide)
  · rw [hcloser] at hafter
    exact nomatch hafter

/-- **An operator is folded** unless it is too loose. -/
theorem operator?_of_operator? {operator : BinaryOperator}
    (min : Precedence) (htable : ctx.table = .standard)
    (hs : s.AtWords found start (w :: ws))
    (hw : w.operator? = some operator) :
    s.operator? ctx min = if min.level ≤ operator.level then
      some ⟨⟨operator.level⟩, .left, .between⟩ else none := by
  have hkind : s.current.kind = w.kind := hs.kind_eq
  have hword : s.current.isKeyword .kwIn = false :=
    decide_eq_false (hkind ▸ (of_operator? hw).2.2 .kwIn)
  have hlt : (⟨operator.level⟩ : Precedence) < min
      ↔ operator.level < min.level := Iff.rfl
  unfold State.operator?
  rw [hs.newlineBefore_eq, hword, htable, hkind,
    OperatorTable.standard_afterOperand?_operator hw]
  simp [Option.filter, hlt]

/-! ## The fold -/

variable (hg : g.ReadsFronts n) (htable : ctx.table = .standard)
  (hturns : n < ctx.turns) (htail : EndsItem tail)

include hg htable hturns htail

/-- **An operator** takes what it may have for its right operand. -/
theorem applyOperator_readsFront {operator : BinaryOperator} {left : Expression}
    {done rest : List Word} (hlength : rest.length < n)
    (hrest : ∀ v ∈ rest, v.isPiece = true) (hleft : left.MadeOf start done)
    (hs : s.AtWords found (start + width done) (w :: rest ++ tail))
    (hw : w.operator? = some operator) :
    ReadsFront (applyOperator g left ⟨⟨operator.level⟩, .left, .between⟩) ctx s
      found start (done ++ w :: rest) tail (closes true rest)
      (fun rest' => rest'.length ≤ rest.length) := by
  have hbounds := operator.level_bounds
  have hlevel : 0 ≤ (Precedence.tighter ⟨operator.level⟩).level := by
    rw [Precedence.tighter_eq (p := ⟨operator.level⟩)
      (show operator.level ≤ 13 by omega)]
    show 0 ≤ operator.level + 1
    omega
  have hplace : start + width done + width [w]
      = start + width (done ++ [w]) := by
    rw [width_append, Nat.add_assoc]
  have hbump : (s.bump ctx).AtWords found (start + width (done ++ [w]))
      (rest ++ tail) := hplace ▸ hs.bump ctx
  have hright := (hg _ hlength htable (Nat.lt_trans hlength hturns) hlevel
    hrest htail hbump).behind (binaryOf operator left) (done ++ [w])
      fun he => by
        rw [List.append_assoc]
        exact .between hw hleft he
  rw [List.append_assoc] at hright
  refine .congr ?_ hright
  exact applyOperator_run (hs.kind_eq.trans (of_operator? hw).2.1) rfl

/-- **The fold over words** goes on from an expression made of the words
before them. -/
theorem foldOperators_readsFront (hmin : 0 ≤ min.level) (turns : Nat)
    {left : Expression} {done rest : List Word} (hlength : rest.length ≤ n)
    (hlt : rest.length < turns)
    (hpieces : ∀ v ∈ done ++ rest, v.isPiece = true)
    (hleft : left.MadeOf start done)
    (hs : s.AtWords found (start + width done) (rest ++ tail)) :
    ReadsFront (foldOperators g min turns left) ctx s found start (done ++ rest)
      tail (closes false rest) (Stops min) := by
  induction turns generalizing s left done rest with
  | zero => exact absurd hlt (Nat.not_lt_zero _)
  | succ turns ih =>
    have hstop (hnone : s.operator? ctx min = none) (hstops : Stops min rest) :
        ReadsFront (foldOperators g min (turns + 1) left) ctx s found start
          (done ++ rest) tail (closes false rest) (Stops min) := by
      refine .inl ⟨left, s, done, rest, rfl, ?_, hs, hleft, rfl, hstops⟩
      rw [foldOperators, bind_run, liftM_operatorAt?_run, hnone]
      rfl
    cases rest with
    | nil => exact hstop (operator?_of_endsItem htable hmin hs htail) nofun
    | cons w rest =>
      cases hw : w.isOperand with
      | true =>
        refine hstop (operator?_of_isOperand hs hw) fun v hv o ho => ?_
        obtain rfl := Option.some.inj hv
        exact absurd ((operator?_eq_none hw).symm.trans ho) nofun
      | false =>
        obtain ⟨o, ho⟩ := exists_operator
          (hpieces w (List.mem_append_right done List.mem_cons_self)) hw
        have hfound := operator?_of_operator? min htable hs ho
        split at hfound
        · -- What is left behind the right operand is folded in its turn.
          have hfold : foldOperators g min (turns + 1) left ctx s
              = (applyOperator g left ⟨⟨o.level⟩, .left, .between⟩
                >>= foldOperators g min turns) ctx s := by
            rw [foldOperators, bind_run, liftM_operatorAt?_run, hfound]
          rw [closes_operator hw]
          refine .congr hfold ((applyOperator_readsFront hg htable hturns htail
            hlength (fun v hv => hpieces v (by simp [hv])) hleft hs ho).bind
            fun {e t done' rest'} hws ht he hclosed hle => ?_)
          rw [List.length_cons] at hlength hlt
          rw [hws] at hpieces ⊢
          rw [hclosed]
          exact ih (by omega) (by omega) hpieces he ht
        · rename_i hloose
          refine hstop hfound fun v hv o' ho' => ?_
          obtain rfl := Option.some.inj hv
          obtain rfl := Option.some.inj (ho.symm.trans ho')
          exact Int.not_le.1 hloose

/-! ## Expressions -/

/-- **An operand**, with the signs in front of it. -/
theorem operand_readsFront (hlength : ws.length ≤ n)
    (hpieces : ∀ v ∈ ws, v.isPiece = true)
    (hs : s.AtWords found start (ws ++ tail)) :
    ReadsFront (operand g) ctx s found start ws tail (closes true ws)
      (fun _ => True) := by
  have hfail {p : Punctuator} (hkind : s.current.kind = .punctuator p)
      (hp : p.opensNothing = true) (hclosed : closes true ws = false) :
      ReadsFront (operand g) ctx s found start ws tail (closes true ws)
        (fun _ => True) :=
    .inr ⟨s, [], ws, rfl, operand_of_opensNothing htable hkind hp, hs, hclosed⟩
  cases ws with
  | nil =>
    -- Behind the words no operand begins.
    rcases htail.kindOf_eq with hkind | hkind
    · exact hfail (hs.kind_eq.trans hkind) rfl rfl
    · exact hfail (hs.kind_eq.trans hkind) rfl rfl
  | cons w ws =>
    have hbehind : ∀ v ∈ ws, v.isPiece = true :=
      fun v hv => hpieces v (List.mem_cons_of_mem w hv)
    cases hw : w.isOperand with
    | true =>
      have hplain : ∀ v ∈ ws ++ tail, v.isPlain = true :=
        List.forall_mem_append.2
          ⟨fun v hv => isPlain_of_isPiece (hbehind v hv), htail.isPlain⟩
      exact .inl ⟨w.operand start, s.bump ctx, [w], ws, rfl,
        operand_of_isOperand hs hw hplain, hs.bump ctx, .operand hw,
        closes_operand hw, trivial⟩
    | false =>
      have hclosed : closes true (w :: ws)
          = (w.sign?.isSome && closes true ws) := closes_sign hw
      obtain ⟨o, ho⟩ := exists_operator (hpieces w List.mem_cons_self) hw
      cases hsign : w.sign? with
      | none =>
        obtain ⟨p, hkind, hp⟩ := opensNothing_of_operator? ho hsign
        refine hfail (hs.kind_eq.trans hkind) hp ?_
        rw [hclosed, hsign]
        rfl
      | some operator =>
        have hsame : closes true (w :: ws) = closes true ws := by
          rw [hclosed, hsign]
          rfl
        rw [hsame]
        have hrun := (hg (Precedence.tighter .sign) hlength htable
          (Nat.lt_trans hlength hturns) (by decide) hbehind htail
          (hs.bump ctx)).behind
            (fun e => .unary operator e ⟨start, e.span.stop⟩) [w]
            fun he => .sign hsign he
        exact .congr (operand_of_sign htable hs hsign)
          (hrun.mono fun _ _ => trivial)

/-- **An expression.** -/
theorem expressionFrom_readsFront (hmin : 0 ≤ min.level)
    (hlength : ws.length ≤ n) (hpieces : ∀ v ∈ ws, v.isPiece = true)
    (hs : s.AtWords found start (ws ++ tail)) :
    ReadsFront (expressionFrom g min) ctx s found start ws tail
      (closes true ws) (Stops min) := by
  refine (operand_readsFront hg htable hturns htail hlength hpieces hs).bind
    fun {e t done rest} hws ht he hclosed _ => ?_
  have hle : rest.length ≤ ws.length := by
    rw [hws, List.length_append]
    omega
  rw [hclosed]
  rw [hws] at hpieces ⊢
  refine .congr (q := foldOperators g min ctx.turns e) (t := t) rfl ?_
  exact foldOperators_readsFront hg htable hturns htail hmin ctx.turns
    (by omega) (by omega) hpieces he ht

end Parse

open Parse in
/-- **A grammar with more levels than there are words** reads a front of
the words. -/
theorem Grammar.levels_readsFronts (n : Nat) : (levels n).ReadsFronts n := by
  induction n with
  | zero => exact fun _ h => absurd h (Nat.not_lt_zero _)
  | succ n ih =>
    intro ctx s found start ws tail min hlength htable hturns hmin hpieces
      htail hs
    have hg : (levels n).ReadsFronts ws.length :=
      fun min h => ih min (Nat.lt_of_lt_of_le h (Nat.le_of_lt_succ hlength))
    exact (expressionFrom_readsFront hg htable hturns htail hmin
      (Nat.le_refl _) hpieces hs.enter).guarded

end ScriptTree
