import ScriptTree.Parse.Declaration
import ScriptTree.Proofs.Paired.Operand
import ScriptTree.Proofs.Parse.Declaration

/-!
# Expressions and their brackets

Calls and accesses with an index are nodes with brackets behind what they
are folded onto. The bracket that opens is the operator: it is the next
token behind the operand, since nothing was read between the two.

Whatever a table says, no bracket is read as any other operator; a
production that took one for an operator fails.
-/

namespace ScriptTree.Parse

open ScriptTree.Action State

variable {root ctx : Context} {r s t : State} {g : Grammar}
  {token : Token} {left : Expression}

/-! ## Targets -/

/-- **An expression that is read from a state on**: it has been read, and
its span tells from where to where. -/
structure Spans (root : Context) (r : State) (e : Expression) (s : State) :
    Prop where
  /-- A run leads there. -/
  leads : r.Leads root s
  /-- The brackets on the way are paired. -/
  pairs : r.Pairs [.expression e] s
  /-- The expression takes up what was read. -/
  reads : State.Reads (As root (fun _ => True) .expression) r.here e s

namespace Spans

theorem past (h : Spans root r left s) : r.here < s.consumedTo := h.reads.1

theorem span_eq (h : Spans root r left s) :
    left.span = ⟨r.here, s.consumedTo⟩ := h.reads.2.spans

/-- **What is refused** becomes an error with all its tokens. -/
theorem refuse (h : Spans root r left s) (error : ParseError) :
    Action.Ensures root (Parse.refuse error left) ctx t (fun e u =>
      r.Pairs [.expression e] s ∧ t.Still u) := by
  refine (reportError_ensures _ error).bind fun _ u _ hstill => ?_
  exact .look _ rfl (.pure ⟨.wrap (.error h.leads h.span_eq h.past) rfl rfl,
    hstill⟩)

theorem assignmentTarget (h : Spans root r left s) :
    Action.Ensures root (Parse.assignmentTarget left) ctx t (fun e u =>
      r.Pairs [.expression e] s ∧ t.Pairs [] u) := by
  refine .ite (fun _ => .pure ⟨h.pairs, .refl t⟩) (fun _ => ?_)
  exact (h.refuse _).mono fun _ _ htu he => ⟨he.1, .of_still htu he.2⟩

theorem deleteTarget (h : Spans root r left s) :
    Action.Ensures root (Parse.deleteTarget left) ctx t (fun e u =>
      r.Pairs [.expression e] s ∧ t.Pairs [] u) := by
  refine .ite (fun _ => .pure ⟨h.pairs, .refl t⟩) (fun _ => ?_)
  exact (h.refuse _).mono fun _ _ htu he => ⟨he.1, .of_still htu he.2⟩

end Spans

/-! ## Operators before an operand -/

/-- **A sign before an operand** is no bracket; it has been read before the
operand. -/
theorem applyBefore_pairs {argument : Expression} (hr : s.Pairs [] r)
    (hargument : Spans root r argument t) :
    Ensures root (applyBefore token argument) ctx t
      (fun e u => s.Pairs [.expression e] u) := by
  have hall := hr.trans hargument.pairs
  unfold applyBefore
  dsimp only
  split
  case h_3 =>
    refine (Ensures.lift hargument.deleteTarget).bind fun e u _ he => ?_
    exact .pure (.wrap ((hr.trans he.1).later he.2) rfl rfl)
  case h_12 => exact .throw _
  all_goals exact .pure (.wrap hall rfl rfl)

/-- **What a sign before an operand is.** Any other fails. -/
theorem applyBefore_never {argument : Expression}
    {Q : Expression → State → Prop} (h : token.isBracket = true) :
    Ensures root (applyBefore token argument) ctx s Q := by
  unfold applyBefore
  dsimp only
  split
  case h_12 => exact .throw _
  all_goals
    rename_i hk
    rw [Token.isBracket_of_kind hk] at h
    cases h

variable (hg : g.Pairs root)

include hg

/-- **An expression is read** with its span. -/
theorem expression_spans (min : Precedence) :
    Ensures root (g.expression min) ctx s (fun e t => Spans root s e t) := by
  intro hctx hs
  obtain ⟨hst, hpairs⟩ := hg.expression min hctx hs
  obtain ⟨-, hreads⟩ := hg.sound.expression min hctx hs
  exact ⟨hst, fun e he => ⟨hst, hpairs e he, hreads e he⟩⟩

theorem operand_pairs :
    Ensures root (operand g) ctx s
      (fun e t => s.Pairs [.expression e] t) := by
  refine .look s.current rfl (.look ctx rfl ?_)
  split
  · rename_i info hinfo
    refine .ite (fun _ => ?_) (fun _ => primary_pairs hg)
    have heof := isEof_of_beforeOperand? hinfo
    cases hbracket : s.current.isBracket with
    | true =>
      refine (Ensures.lift (advance_ensures heof).discard).bind
        fun _ t _ _ => ?_
      exact (hg.expression _).bind fun argument u _ _ =>
        applyBefore_never hbracket
    | false =>
      refine (Ensures.lift (pass_pairs heof hbracket)).bind fun _ t _ ht => ?_
      exact (expression_spans hg _).bind fun argument u _ hargument =>
        applyBefore_pairs ht hargument
  · exact primary_pairs hg

/-! ## Operators behind an operand -/

/-- **Arguments and the bracket behind them.** -/
theorem callArguments_pairs :
    Ensures root (callArguments g) ctx s
      (fun es t => s.Closes .rParen (es.map .expression) t) := by
  refine (separated_pairs (fun _ => assignment_pairs hg) _ _).bind
    fun es t _ hes => ?_
  rw [← List.map_eq_flatMap] at hes
  exact (close_pairs .rParen hes).bind fun _ u _ hu => .pure hu

/-- **A sign behind an operand**, with what belongs to it. -/
theorem applyAfter_pairs (hleft : Spans root r left s)
    (hshift : s.Shifts token t) (hst : s.Leads root t) :
    Ensures root (applyAfter g left token) ctx t
      (fun e u => r.Pairs [.expression e] u) := by
  have hplain : ∀ {kind : TokenKind}, token.kind = kind →
      (kind.isOpener || kind.isCloser) = false →
      r.Pairs [.expression left] t := fun hk hkind =>
    hleft.pairs.later (.token hshift
      (hshift.token_eq ▸ (Token.isBracket_of_kind hk).trans hkind))
  have hopens : ∀ {p : Punctuator}, token.kind = .punctuator p →
      s.current.isPunctuator p = true := fun hk =>
    hshift.token_eq ▸ decide_eq_true hk
  have hstart : left.span.start = r.here := by rw [hleft.span_eq]
  have hstop : left.span.stop = s.consumedTo := by rw [hleft.span_eq]
  have hpast : ∀ {u}, t.Leads root u → r.here < u.consumedTo := fun htu =>
    Nat.lt_of_lt_of_le hleft.past (hst.trans htu).consumedTo_le
  unfold applyAfter
  dsimp only
  split
  case h_1 hk => exact .pure (.wrap (hplain hk rfl) rfl rfl)
  case h_2 hk => exact .pure (.wrap (hplain hk rfl) rfl rfl)
  case h_3 hk =>
    refine hg.arguments.bind fun arguments u htu hu => ?_
    refine .look (u.spanFrom _) rfl (.pure ?_)
    refine (Brackets.open_ (hopens hk) hshift rfl hu).suffix hleft.leads
      hleft.pairs hleft.past hstop rfl rfl rfl rfl ?_
    rw [hstart]
    exact congrArg Span.stop (spanFrom_eq (hpast htu))
  case h_4 hk =>
    refine propertyName_pairs.bind fun property u _ hproperty => ?_
    exact .pure (.wrap ((hplain hk rfl).trans hproperty) rfl rfl)
  case h_5 hk =>
    refine (hg.bracketed _ _).bind fun index u htu hindex => ?_
    refine (close_pairs .rBracket hindex).bind fun _ v huv hv => ?_
    refine .look (v.spanFrom _) rfl (.pure ?_)
    refine (Brackets.open_ (hopens hk) hshift rfl hv).suffix hleft.leads
      hleft.pairs hleft.past hstop rfl rfl rfl rfl ?_
    rw [hstart]
    exact congrArg Span.stop (spanFrom_eq (hpast (htu.trans huv)))
  case h_6 => exact .throw _

/-- **An operator between two operands.** -/
theorem binaryOf_pairs (operator : BinaryOperator) (right : Precedence)
    (hleft : r.Pairs [.expression left] t) :
    Ensures root (do
      let second ← g.expression right
      pure (binaryOf operator left second)) ctx t
      (fun e u => r.Pairs [.expression e] u) :=
  (hg.expression right).bind fun _ _ _ hsecond =>
    .pure (.wrap (hleft.trans hsecond) rfl rfl)

/-- **An assignment of any kind.** -/
theorem assign_pairs (mk : Expression → Expression → Span → Expression)
    (hmk : ∀ target value span,
      (Node.expression (mk target value span)).children
          = [.expression target, .expression value]
        ∧ (Node.expression (mk target value span)).bracketing? = none)
    (right : Precedence) (hleft : Spans root r left s)
    (hsign : s.Pairs [] t) :
    Ensures root (do
      let target ← liftM (assignmentTarget left)
      let value ← g.expression right
      pure (mk target value ⟨left.span.start, value.span.stop⟩)) ctx t
      (fun e u => r.Pairs [.expression e] u) := by
  refine (Ensures.lift hleft.assignmentTarget).bind
    fun target u _ htarget => ?_
  refine (hg.expression right).bind fun value v _ hvalue => .pure ?_
  obtain ⟨hchildren, hnone⟩ :=
    hmk target value ⟨left.span.start, value.span.stop⟩
  refine .wrap ?_ rfl hnone
  rw [hchildren]
  exact ((htarget.1.later hsign).later htarget.2).trans hvalue

/-- **A mark between two operands.** If it is a bracket there is no such
operator. -/
theorem applyMark_pairs {p : Punctuator} (right : Precedence)
    (hleft : Spans root r left s)
    (hsign : (p.isOpener || p.isCloser) = false → s.Pairs [] t) :
    Ensures root (applyMark g left token p right) ctx t
      (fun e u => r.Pairs [.expression e] u) := by
  unfold applyMark
  dsimp only
  split
  · refine (hg.expression right).bind fun second u _ hsecond => ?_
    exact .pure (.wrap ((hleft.pairs.later (hsign rfl)).trans hsecond) rfl rfl)
  · exact assign_pairs hg .assignment (fun _ _ _ => ⟨rfl, rfl⟩) right hleft
      (hsign rfl)
  · refine hg.consequent.bind fun consequent u _ hconsequent => ?_
    refine (expectPunctuator_pairs .colon rfl).discard.bind
      fun _ v _ hcolon => ?_
    obtain ⟨-, hv⟩ := hcolon
    refine (hg.expression right).bind fun alternate w _ halternate => ?_
    refine .pure (.wrap ?_ rfl rfl)
    exact (((hleft.pairs.later (hsign rfl)).trans hconsequent).later
      hv).trans halternate
  · split
    case h_1 hp =>
      refine assign_pairs hg (.compoundAssignment _)
        (fun _ _ _ => ⟨rfl, rfl⟩) right hleft (hsign ?_)
      cases p <;> first | rfl | cases hp
    · split
      case h_1 hp =>
        refine binaryOf_pairs hg _ right (hleft.pairs.later (hsign ?_))
        cases p <;> first | rfl | cases hp
      · exact .throw _

omit hg in
/-- **Only marks and reserved words are operators between operands.** -/
theorem kind_of_operator? {min : Precedence} {info : OperatorInfo}
    (h : s.operator? ctx min = some info) :
    (∃ p, s.current.kind = .punctuator p)
      ∨ ∃ k, s.current.kind = .keyword k := by
  have hfind : ∀ {table : OperatorTable} {kind : TokenKind} {fixity : Fixity}
      {info : OperatorInfo}, table.find? kind fixity = some info →
      (∃ p, kind = .punctuator p) ∨ ∃ k, kind = .keyword k := by
    intro table kind fixity info hinfo
    cases kind with
    | punctuator p => exact .inl ⟨p, rfl⟩
    | keyword k => exact .inr ⟨k, rfl⟩
    | _ => cases hinfo
  simp only [State.operator?, OperatorTable.afterOperand?] at h
  split at h
  · cases h
  · split at h
    · cases h
    · rcases Option.or_eq_some_iff.1 (Option.filter_eq_some_iff.1 h).1 with
        h | ⟨_, h⟩
      · exact hfind h
      · exact hfind h

/-- **An operator folded onto what was read before it.** -/
theorem applyOperator_pairs {min : Precedence} {info : OperatorInfo}
    (hfound : s.operator? ctx min = some info)
    (hleft : Spans root r left s) :
    Ensures root (applyOperator g left info) ctx s
      (fun e t => r.Pairs [.expression e] t) := by
  have heof := isEof_of_operator? hfound
  refine (Ensures.lift (advance_shifts heof)).bind fun token t hst ht => ?_
  have hsign : s.current.isBracket = false → s.Pairs [] t := .token ht
  refine .ite (fun _ => ?_) (fun _ => ?_)
  · exact applyAfter_pairs hg hleft ht hst
  have hword : ∀ {k : Keyword}, token.kind = .keyword k →
      r.Pairs [.expression left] t := fun hk =>
    hleft.pairs.later (hsign (Token.isBracket_of_kind (ht.token_eq ▸ hk)))
  split
  case h_1 p hk =>
    have hmark : s.current.kind = .punctuator p := ht.token_eq ▸ hk
    exact applyMark_pairs hg _ hleft fun hp =>
      hsign ((Token.isBracket_of_kind hmark).trans hp)
  case h_2 hk => exact binaryOf_pairs hg _ _ (hword hk)
  case h_3 hmark _ =>
    rcases kind_of_operator? hfound with ⟨p, hk⟩ | ⟨k, hk⟩
    · exact absurd (ht.token_eq ▸ hk) (hmark p)
    · exact binaryOf_pairs hg _ _ (hword (ht.token_eq ▸ hk))

/-! ## The fold -/

/-- **The fold** begins where its operand began. -/
theorem foldOperators_pairs (min : Precedence) (turns : Nat)
    (hleft : Spans root r left s) :
    Ensures root (foldOperators g min turns left) ctx s
      (fun e t => r.Pairs [.expression e] t) := by
  induction turns generalizing left s with
  | zero => exact .pure hleft.pairs
  | succ turns ih =>
    refine .look _ (liftM_operatorAt?_run min ctx s) ?_
    cases hfound : s.operator? ctx min with
    | none => exact .pure hleft.pairs
    | some info =>
      have hone : Ensures root (applyOperator g left info) ctx s
          (fun e t => Spans root r e t) := by
        intro hctx hs
        obtain ⟨hst, hpairs⟩ := applyOperator_pairs hg hfound hleft hctx hs
        obtain ⟨-, hreads⟩ := applyOperator_ensures hg.sound info
          (isEof_of_operator? hfound) hleft.reads hctx hs
        exact ⟨hst, fun e he => ⟨hleft.leads.trans hst, hpairs e he,
          (hreads e he).2 trivial⟩⟩
      exact hone.bind fun e t _ he => ih he

/-- **An expression.** -/
theorem expressionFrom_pairs (min : Precedence) :
    Ensures root (expressionFrom g min) ctx s
      (fun e t => s.Pairs [.expression e] t) := by
  have hone : Ensures root (operand g) ctx s
      (fun e t => Spans root s e t) := by
    intro hctx hs
    obtain ⟨hst, hpairs⟩ := operand_pairs hg hctx hs
    obtain ⟨-, hreads⟩ := operand_ensures hg.sound hctx hs
    exact ⟨hst, fun e he => ⟨hst, hpairs e he, hreads e he trivial⟩⟩
  exact hone.bind fun e t _ he =>
    .look ctx rfl (foldOperators_pairs hg min _ he)

/-! ## Terminators -/

omit hg

theorem terminator_pairs (mayTrail : Bool) :
    Action.Ensures root (terminator mayTrail) ctx s
      (fun _ t => s.Pairs [] t) := by
  refine (eat_pairs .semicolon rfl).bind fun _ t _ ht => ?_
  refine .ite (fun _ => .pure ht) (fun _ => ?_)
  refine .look t.newlineBefore rfl (.ite (fun _ => .pure ht) (fun _ => ?_))
  refine .look (t.atListEnd ctx) rfl (.look ctx rfl ?_)
  refine .ite (fun _ => .pure ht) (fun _ => ?_)
  refine .look t.current rfl (.ite (fun _ => .pure ht) (fun _ => ?_))
  exact (Ensures.still (report_ensures _ _ _ _)).mono
    fun _ _ _ h => ht.trans h

theorem declarationEnd_pairs :
    Action.Ensures root declarationEnd ctx s (fun _ t => s.Pairs [] t) :=
  .look s.newlineBefore rfl (.ite (fun _ => .pure (.refl s))
    (fun _ => (eat_pairs .semicolon rfl).discard.mono
      fun _ _ _ ⟨_, h⟩ => h))

theorem expressionEnd_pairs (e : Expression) :
    Action.Ensures root (expressionEnd e) ctx s (fun _ t => s.Pairs [] t) :=
  .ite (fun _ => (eat_pairs .semicolon rfl).discard.mono
      fun _ _ _ ⟨_, h⟩ => h)
    (fun _ => .ite (fun _ => declarationEnd_pairs)
      (fun _ => terminator_pairs true))

/-! ## Declarations of variables -/

theorem anotherBinding_pairs (mended : Bool) :
    Action.Ensures root (anotherBinding mended) ctx s
      (fun _ t => s.Pairs [] t) := by
  refine (eat_pairs .comma rfl).bind fun _ t _ ht => ?_
  exact .ite (fun _ => .pure ht) (fun _ => .look t rfl (.pure ht))

include hg

theorem initializer?_pairs :
    Ensures root (initializer? g) ctx s
      (fun e? t => s.Pairs (e?.toList.map .expression) t) := by
  refine (Ensures.lift (eat_pairs .assign rfl)).bind fun _ t _ ht => ?_
  refine .ite (fun _ => ?_) (fun _ => .pure ht)
  exact (assignment_pairs hg).bind fun e u _ he => .pure (ht.trans he)

/-- **One binding.** -/
theorem binding_pairs :
    Ensures root (binding g) ctx s (fun d t => s.Pairs d.parts t) := by
  refine identifier_pairs.bind fun id t _ hid => ?_
  refine (initializer?_pairs hg).bind fun init? u _ hinit => ?_
  exact .look (u.spanFrom id.span.start) rfl (.pure (hid.trans hinit))

theorem bindingsFrom_pairs (turns : Nat) {found : List Declarator}
    (hfound : r.Pairs (found.reverse.flatMap Declarator.parts) s) :
    Ensures root (bindingsFrom g turns found) ctx s
      (fun ds t => r.Pairs (ds.flatMap Declarator.parts) t) := by
  induction turns generalizing s found with
  | zero => exact .pure hfound
  | succ turns ih =>
    refine (tolerant_pairs .varBinding (binding_pairs hg)).bind
      fun d t _ hd => ?_
    refine (Ensures.lift (anotherBinding_pairs _)).bind fun _ u _ hu => ?_
    have hfound := (hfound.concat hd).later hu
    exact .ite (fun _ => ih hfound) (fun _ => .pure hfound)

omit hg in
/-- A word that opens a declaration is no bracket. -/
theorem isBracket_of_varKind? {kind : VarKind}
    (h : varKind? token.kind = some kind) : token.isBracket = false := by
  unfold varKind? at h
  split at h <;>
    first
    | exact Token.isBracket_of_kind ‹_›
    | exact nomatch h

/-- **A declaration**, whatever its span. -/
theorem variableDeclaration_pairs (heof : s.current.isEof = false)
    (hplain : s.current.isBracket = false) :
    Ensures root (variableDeclaration g) ctx s (fun d t => ∀ span,
      s.Pairs [.declaration { d with span := span }] t) := by
  refine (Ensures.lift (advance_pairs heof hplain)).bind
    fun token t _ ⟨_, ht⟩ => ?_
  refine .look ctx rfl ?_
  refine (bindingsFrom_pairs hg _ (.refl t)).bind
    fun declarators u _ hdeclarators => ?_
  refine .look (u.spanFrom token.span.start) rfl (.pure (fun span => ?_))
  exact .wrap (ht.trans hdeclarators) rfl rfl

theorem declarationStatement_pairs (heof : s.current.isEof = false)
    (hplain : s.current.isBracket = false) :
    Ensures root (declarationStatement g) ctx s
      (fun x t => s.Pairs [.statement x] t) := by
  refine .look s.here rfl ?_
  refine (variableDeclaration_pairs hg heof hplain).bind fun d t _ hd => ?_
  refine (Ensures.lift (terminator_pairs false)).bind fun _ u _ hu => ?_
  refine .look (u.spanFrom s.here) rfl (.pure (.wrap ?_ rfl rfl))
  exact (hd _).later hu

/-- **An expression as a statement.** -/
theorem expressionStatement_pairs :
    Ensures root (expressionStatement g) ctx s
      (fun x t => s.Pairs [.statement x] t) := by
  refine .look s.here rfl ?_
  refine (tolerant_pairs .expressionStatement (expression_pairs hg)).bind
    fun e t _ he => ?_
  refine (Ensures.lift (expressionEnd_pairs e)).bind fun _ u _ hu => ?_
  exact .look (u.spanFrom s.here) rfl (.pure (.wrap (he.later hu) rfl rfl))

end ScriptTree.Parse
