import ScriptTree.Proofs.Origin.Branch
import ScriptTree.Proofs.Parse.Rank

/-!
# The word `in` of a loop's header

In `for (x in y) z;` the word `in` says which kind of loop it is; elsewhere
it is an operator. So the part of a header in front of it is read in a
context where `in` is no operator, and what is in brackets there, where it
is one again, is read in the context of the brackets. The tree shows both:
a test for membership in that part has something around it that shields it.

Only the operator at hand makes a test for membership. With the standard
table it does so at the word `in` alone, and there the fold of an expression
stops (`Parse.foldOperators_hidesIn`). All else is a matter of the shape of
the tree.
-/

namespace ScriptTree

/-! ## What is shielded -/

namespace Node

/-- **The nodes right below a node that are not shielded.** Brackets shield
what is in them – the arguments of a call and the index of an access, too –
and so do functions, classes, methods and blocks, and the marks around the
first branch of a choice. -/
def exposed : Node → List Node
  | expression (.parenthesized ..) | expression (.array ..)
  | expression (.object ..) | function _ | classDef _ | method _
  | block _ => []
  | expression (.call callee _ _) => [.expression callee]
  | expression (.subscript owner _ _) => [.expression owner]
  | expression (.conditional test _ alternate _) =>
    [.expression test, .expression alternate]
  | n => n.children

/-- **The nodes of a tree with nothing around them that shields them.** -/
inductive Shows : Node → Node → Prop where
  /-- The root is one. -/
  | self (n : Node) : Shows n n
  /-- A tree shows what its exposed parts show. -/
  | through {n c m : Node} (part : c ∈ n.exposed) (shows : Shows c m) :
    Shows n m

/-- Whether the node is a test for membership. -/
def isMembership : Node → Bool
  | expression (.binary .isIn ..) => true
  | _ => false

/-- **A tree that hides its tests for membership**: each of them is
shielded. -/
def HidesIn (n : Node) : Prop := ∀ m, n.Shows m → m.isMembership = false

variable {n : Node} {e : Expression}

/-- The root is no test, and what is exposed below hides its tests. -/
theorem HidesIn.intro (hn : n.isMembership = false)
    (h : ∀ c ∈ n.exposed, c.HidesIn) : n.HidesIn := by
  intro m hm
  cases hm with
  | self => exact hn
  | through part shows => exact h _ part m shows

/-- **What exposes nothing** hides all there is. -/
theorem HidesIn.shield (hn : n.isMembership = false) (h : n.exposed = []) :
    n.HidesIn :=
  .intro hn fun _ hc => nomatch h ▸ hc

/-- A node with one exposed node below it. -/
theorem HidesIn.around {m : Node} (hn : n.isMembership = false)
    (h : n.exposed = [m]) (hm : m.HidesIn) : n.HidesIn :=
  .intro hn (h ▸ List.forall_mem_singleton.2 hm)

/-- A node with two exposed nodes below it. -/
theorem HidesIn.between {m k : Node} (hn : n.isMembership = false)
    (h : n.exposed = [m, k]) (hm : m.HidesIn) (hk : k.HidesIn) :
    n.HidesIn :=
  .intro hn (h ▸ List.forall_mem_cons.2 ⟨hm, List.forall_mem_singleton.2 hk⟩)

theorem HidesIn.identifier (id : Identifier) : (identifier id).HidesIn :=
  .shield rfl rfl

end Node

/-! ## Where `in` is no operator -/

/-- **A context without `in`**, with the standard table. -/
def Context.Spares (ctx : Context) : Prop :=
  ctx.table = .standard ∧ ctx.allowIn = false

/-- The one operator of the standard table that is neither a mark nor the
test for a class. -/
theorem OperatorTable.standard_isIn {kind : TokenKind} {info : OperatorInfo}
    (hinfo : standard.afterOperand? kind = some info)
    (hmark : ∀ p, kind ≠ .punctuator p)
    (hword : kind ≠ .keyword .kwInstanceof) : kind = .keyword .kwIn := by
  cases kind
  case punctuator p => exact absurd rfl (hmark p)
  case keyword k =>
    cases k
    case kwIn => rfl
    case kwInstanceof => exact absurd rfl hword
    all_goals cases hinfo
  all_goals cases hinfo

namespace Parse

open ScriptTree.Action Node

/-- No mark tests for membership. -/
theorem binaryOperator?_ne_isIn {p : Punctuator} :
    binaryOperator? p ≠ some .isIn := by
  cases p <;> exact nofun

/-- **A production whose expressions hide their tests** where `in` is no
operator. -/
abbrev Hides (p : Parse Expression) : Prop :=
  Gives Context.Spares p (fun e => (Node.expression e).HidesIn)

/-! ## Operands -/

variable {g : Grammar}

theorem functionExpression_hidesIn (isAsync : Bool) (start : Nat) :
    Hides (functionExpression g isAsync start) := by
  refine .skip fun _ => .skip fun isGenerator => .skip fun id? =>
    .skip fun params => .skip fun body => .skip fun span => .pure ?_
  cases isGenerator <;> exact .around rfl rfl (.shield rfl rfl)

variable (hg : ∀ min, Hides (g.expression min))

include hg

/-- **An arrow function** does not shield the value it has for a body. -/
theorem arrowFunction_hidesIn (isAsync : Bool) (params : List Identifier)
    (start : Nat) : Hides (arrowFunction g isAsync params start) := by
  have hnext : ∀ body : ArrowBody, body.part.HidesIn →
      Hides (do return .arrow isAsync params body (← spanFrom start)) := by
    refine fun body hbody => .skip fun _ => .pure (.intro rfl ?_)
    refine List.forall_mem_append.2 ⟨?_, List.forall_mem_singleton.2 hbody⟩
    exact List.forall_mem_map.2 fun id _ => .identifier id
  refine .skip fun _ => .skip fun _ => ?_
  dsimp only
  refine .ite (fun _ => ?_) (fun _ => ?_)
  · exact .bind (.map (.any fun _ => .shield rfl rfl)) hnext
  · refine .bind (.map ?_) hnext
    exact hg .assignment

theorem asyncFunction?_hidesIn :
    Gives Context.Spares (asyncFunction? g)
      (fun e? => ∀ e, e? = some e → (Node.expression e).HidesIn) := by
  have hsome : ∀ {p : Parse Expression}, Hides p →
      Gives Context.Spares (do return some (← p))
        (fun e? => ∀ e, e? = some e → (Node.expression e).HidesIn) :=
    fun hp => hp.bind fun e he => .pure fun e' heq => Option.some.inj heq ▸ he
  refine .skip fun _ => .ite (fun _ => .skip fun _ => ?_) (fun _ => .ite
    (fun _ => .skip fun _ => .skip fun _ => ?_) (fun _ => .ite
      (fun _ => .skip fun _ => .skip fun _ => ?_) (fun _ => .pure nofun)))
  · exact hsome (functionExpression_hidesIn _ _)
  · exact hsome (arrowFunction_hidesIn hg _ _ _)
  · exact hsome (arrowFunction_hidesIn hg _ _ _)

theorem nameOrArrow_hidesIn : Hides (nameOrArrow g) := by
  refine .skip fun _ => .skip fun _ => .ite (fun _ => .skip fun _ => ?_)
    (fun _ => .skip fun id => .pure (.around rfl rfl (.identifier id)))
  exact arrowFunction_hidesIn hg _ _ _

theorem nameOperand_hidesIn : Hides (nameOperand g) := by
  refine .skip fun _ => .ite (fun _ => ?_) (fun _ => nameOrArrow_hidesIn hg)
  refine (asyncFunction?_hidesIn hg).bind fun e? he => ?_
  cases e? with
  | some e => exact .pure (he e rfl)
  | none => exact nameOrArrow_hidesIn hg

theorem parenthesizedOrArrow_hidesIn : Hides (parenthesizedOrArrow g) :=
  .skip fun _ => .ite
    (fun _ => .skip fun _ => arrowFunction_hidesIn hg _ _ _)
    (fun _ => .skip fun _ => .skip fun _ => .pure (.shield rfl rfl))

omit hg in
theorem keywordOperand_hidesIn (k : Keyword) : Hides (keywordOperand g k) := by
  have hliteral : ∀ kind, Hides
      (do return Expression.literal (← literal kind)) :=
    fun kind => .skip fun _ => .pure (.around rfl rfl (.shield rfl rfl))
  unfold keywordOperand
  split
  · exact .skip fun _ => .pure (.shield rfl rfl)
  · exact .skip fun _ => .skip fun _ => .ite
      (fun _ => .pure (.shield rfl rfl)) (fun _ => unexpected_gives _)
  · exact hliteral _
  · exact hliteral _
  · exact hliteral _
  · exact hliteral _
  · exact .skip fun _ => functionExpression_hidesIn _ _
  · exact .skip fun _ => .pure (.around rfl rfl (.shield rfl rfl))
  · exact unexpected_gives _

/-- **An operand without operators** hides its tests. -/
theorem primary_hidesIn : Hides (primary g) := by
  have hliteral : ∀ p : Parse Literal, Hides
      (do return Expression.literal (← p)) :=
    fun p => .skip fun _ => .pure (.around rfl rfl (.shield rfl rfl))
  refine .skip fun token => ?_
  split
  · exact nameOperand_hidesIn hg
  · exact hliteral _
  · exact hliteral _
  · exact hliteral _
  · exact hliteral _
  · exact hliteral _
  · exact hliteral _
  · exact parenthesizedOrArrow_hidesIn hg
  · exact .skip fun _ => .skip fun _ => .skip fun _ => .skip fun _ =>
      .pure (.shield rfl rfl)
  · exact .skip fun _ => .skip fun _ => .skip fun _ => .skip fun _ =>
      .pure (.shield rfl rfl)
  · exact keywordOperand_hidesIn _
  · exact unexpected_gives _

omit hg in
/-- Text that could not be read has nothing to hide. -/
theorem errorExpression_hidesIn (node : ErrorNode) :
    (Node.expression (.error node)).HidesIn :=
  .around rfl rfl (.shield rfl rfl)

variable {left : Expression} (hleft : (Node.expression left).HidesIn)

omit hg in
include hleft in
theorem assignmentTarget_hidesIn :
    Action.Gives Context.Spares (assignmentTarget left)
      (fun e => (Node.expression e).HidesIn) :=
  .ite (fun _ => .pure hleft)
    (fun _ => .skip fun _ => .skip fun _ => .pure (errorExpression_hidesIn _))

omit hg in
include hleft in
theorem deleteTarget_hidesIn :
    Action.Gives Context.Spares (deleteTarget left)
      (fun e => (Node.expression e).HidesIn) :=
  .ite (fun _ => .pure hleft)
    (fun _ => .skip fun _ => .skip fun _ => .pure (errorExpression_hidesIn _))

omit hg in
include hleft in
theorem applyBefore_hidesIn (token : Token) :
    Hides (applyBefore token left) := by
  unfold applyBefore
  dsimp only
  split
  case h_3 =>
    exact (Gives.lift (deleteTarget_hidesIn hleft)).bind fun _ he =>
      .pure (.around rfl rfl he)
  case h_12 => exact .throw _
  all_goals exact .pure (.around rfl rfl hleft)

theorem operand_hidesIn : Hides (operand g) := by
  refine .skip fun _ => .skip fun _ => ?_
  split
  · refine .ite (fun _ => .skip fun _ => ?_) (fun _ => primary_hidesIn hg)
    exact (hg _).bind fun _ he => applyBefore_hidesIn he _
  · exact primary_hidesIn hg

/-! ## Operators -/

omit hg in
include hleft in
/-- **Calls and accesses** shield all but their object. -/
theorem applyAfter_hidesIn (token : Token) :
    Hides (applyAfter g left token) := by
  unfold applyAfter
  dsimp only
  split
  · exact .pure (.around rfl rfl hleft)
  · exact .pure (.around rfl rfl hleft)
  · exact .skip fun _ => .skip fun _ => .pure (.around rfl rfl hleft)
  · exact .skip fun id => .pure (.between rfl rfl hleft (.identifier id))
  · exact .skip fun _ => .skip fun _ => .skip fun _ =>
      .pure (.around rfl rfl hleft)
  · exact .throw _

include hleft

theorem binaryOf_hidesIn (operator : BinaryOperator)
    (hoperator : operator ≠ .isIn) (right : Precedence) :
    Hides (do return binaryOf operator left (← g.expression right)) := by
  refine (hg right).bind fun second hsecond => .pure ?_
  refine .between ?_ rfl hleft hsecond
  cases operator with
  | isIn => exact absurd rfl hoperator
  | _ => rfl

theorem applyMark_hidesIn (token : Token) (p : Punctuator)
    (right : Precedence) : Hides (applyMark g left token p right) := by
  unfold applyMark
  dsimp only
  split
  · exact (hg _).bind fun _ he => .pure (.between rfl rfl hleft he)
  · refine (Gives.lift (assignmentTarget_hidesIn hleft)).bind fun _ ht => ?_
    exact (hg _).bind fun _ he => .pure (.between rfl rfl ht he)
  · exact .skip fun _ => .skip fun _ => (hg _).bind fun _ he =>
      .pure (.between rfl rfl hleft he)
  · split
    · refine (Gives.lift (assignmentTarget_hidesIn hleft)).bind fun _ ht => ?_
      exact (hg _).bind fun _ he => .pure (.between rfl rfl ht he)
    · split
      · rename_i operator hoperator
        refine binaryOf_hidesIn hg hleft operator ?_ right
        rintro rfl
        exact binaryOperator?_ne_isIn hoperator
      · exact .throw _

/-- **An operator that may be folded** where `in` is none makes no test for
membership. -/
theorem applyOperator_hidesIn {ctx : Context} {s t : State} {e : Expression}
    {min : Precedence} {info : OperatorInfo} (hctx : ctx.Spares)
    (hinfo : s.operator? ctx min = some info)
    (h : applyOperator g left info ctx s = (.ok e, t)) :
    (Node.expression e).HidesIn := by
  obtain ⟨-, hin, hafter, -⟩ := State.operator?_eq_some_iff.1 hinfo
  rw [hctx.1] at hafter
  have hnot : s.current.kind ≠ .keyword .kwIn := by
    intro hkind
    rw [Token.isKeyword, hkind, hctx.2] at hin
    exact absurd hin (by decide)
  obtain ⟨token, u, htoken, h⟩ := of_bind_run h
  cases htoken
  -- What is folded hides the word in every context, not only in this one.
  refine (show Hides _ from ?_) ctx _ e t hctx h
  refine .ite (fun _ => applyAfter_hidesIn hleft _) (fun _ => ?_)
  split
  · exact applyMark_hidesIn hg hleft _ _ _
  · exact binaryOf_hidesIn hg hleft .instanceOf (by decide) _
  · rename_i hmark hword
    exact absurd (OperatorTable.standard_isIn hafter hmark hword) hnot

/-- **The fold stops at the word `in`**, so that no test is made by it. -/
theorem foldOperators_hidesIn (min : Precedence) (turns : Nat) :
    Hides (foldOperators g min turns left) := by
  induction turns generalizing left with
  | zero => exact .pure hleft
  | succ turns ih =>
    intro ctx s e t hctx h
    obtain ⟨info?, u, hfound, h⟩ := of_bind_run h
    cases hfound.symm.trans (liftM_operatorAt?_run min ctx s)
    cases hinfo : s.operator? ctx min with
    | none =>
      rw [hinfo] at h
      cases h
      exact hleft
    | some info =>
      rw [hinfo] at h
      obtain ⟨e', v, happly, h⟩ := of_bind_run h
      exact ih (applyOperator_hidesIn hg hleft hctx hinfo happly)
        ctx v e t hctx h

omit hleft

theorem expressionFrom_hidesIn (min : Precedence) :
    Hides (expressionFrom g min) :=
  (operand_hidesIn hg).bind fun _ he => .skip fun _ =>
    foldOperators_hidesIn hg he min _

end Parse

open Parse in
/-- **At each level of the grammar** expressions hide their tests where `in`
is no operator. -/
theorem Grammar.levels_hidesIn (n : Nat) (min : Precedence) :
    Hides ((levels n).expression min) := by
  induction n generalizing min with
  | zero => exact tooDeep_gives
  | succ n ih => exact (expressionFrom_hidesIn ih min).guarded

/-! ## The first part of a header -/

/-- **What a loop sets** before its first turn or in each: the part of its
header in front of the word or terminator. -/
def Statement.targets : Statement → List Node
  | forLoop (some init) _ _ _ _ => [init.part]
  | forIn _ left _ _ _ | forOf _ left _ _ _ => [.expression left]
  | _ => []

/-- Only a loop sets anything. -/
theorem Statement.EndsItself.targets_eq {x : Statement} (h : x.EndsItself) :
    x.targets = [] := by
  obtain ⟨htrailing, -⟩ := h
  cases x with
  | forLoop | forIn | forOf => exact nomatch htrailing
  | _ => rfl

/-- What the loop with the header sets. -/
def ForHeader.targets : ForHeader → List Node
  | counting init? _ _ => init?.toList.map ForInit.part
  | overKeys _ left _ | overValues _ left _ => [.expression left]

namespace Parse

open ScriptTree.Action Node

theorem targets_loopOf (header : ForHeader) (body : Statement) (span : Span) :
    (loopOf header body span).targets = header.targets := by
  cases header with
  | counting init? => cases init? <;> rfl
  | overKeys | overValues => rfl

variable {g : Grammar} (hg : ∀ min, Hides (g.expression min))

include hg

theorem binding_hidesIn :
    Gives Context.Spares (binding g) (fun d => ∀ n ∈ d.parts, n.HidesIn) := by
  have hinit : Gives Context.Spares (initializer? g)
      (fun e? => ∀ n ∈ e?.toList.map Node.expression, n.HidesIn) :=
    .skip fun _ => .ite
      (fun _ => (hg .assignment).bind fun _ he =>
        .pure (List.forall_mem_singleton.2 he))
      (fun _ => .pure (List.forall_mem_nil _))
  exact .skip fun id => hinit.bind fun e? he => .skip fun _ =>
    .pure (List.forall_mem_cons.2 ⟨.identifier id, he⟩)

theorem bindingsFrom_hidesIn (turns : Nat) {found : List Declarator}
    (hfound : ∀ d ∈ found, ∀ n ∈ d.parts, n.HidesIn) :
    Gives Context.Spares (bindingsFrom g turns found)
      (fun ds => ∀ d ∈ ds, ∀ n ∈ d.parts, n.HidesIn) := by
  induction turns generalizing found with
  | zero => exact .pure fun d hd => hfound d (List.mem_reverse.1 hd)
  | succ turns ih =>
    have hmend : ∀ node : ErrorNode,
        ∀ n ∈ (Declarator.error node).parts, n.HidesIn :=
      fun node => List.forall_mem_singleton.2 (.shield rfl rfl)
    refine (tolerant_gives hmend _ (binding_hidesIn hg)).bind fun d hd => ?_
    have hmore : ∀ x ∈ d :: found, ∀ n ∈ x.parts, n.HidesIn :=
      List.forall_mem_cons.2 ⟨hd, hfound⟩
    exact .skip fun _ => .ite (fun _ => ih hmore)
      (fun _ => .pure fun x hx => hmore x (List.mem_reverse.1 hx))

theorem variableDeclaration_hidesIn :
    Gives Context.Spares (variableDeclaration g)
      (fun d => (Node.declaration d).HidesIn) := by
  refine .skip fun _ => .skip fun _ =>
    (bindingsFrom_hidesIn hg _ (List.forall_mem_nil _)).bind fun ds hds =>
      .skip fun _ => .pure (.intro rfl fun n hn => ?_)
  obtain ⟨d, hd, hn⟩ := List.mem_flatMap.1 hn
  exact hds d hd n hn

/-- **The first part of a header** hides its tests, in every context with
the standard table: it is read without `in`. -/
theorem headerInit_hidesIn :
    Gives (Context.Uses .standard) (headerInit g)
      (fun i? => ∀ n ∈ i?.toList.map ForInit.part, n.HidesIn) := by
  have hwithout : ∀ ctx, Context.Uses .standard ctx →
      ctx.withoutIn.Spares := fun _ h => ⟨h, rfl⟩
  refine .skip fun _ => .ite (fun _ => .pure (List.forall_mem_nil _))
    (fun _ => .ite (fun _ => ?_) (fun _ => ?_))
  · exact (Gives.withReader hwithout (variableDeclaration_hidesIn hg)).bind
      fun _ hd => .pure (List.forall_mem_singleton.2 hd)
  · exact (Gives.withReader hwithout
      (tolerant_gives errorExpression_hidesIn _ (hg _))).bind
        fun _ he => .pure (List.forall_mem_singleton.2 he)

omit hg in
/-- What a loop sets in each turn is the first part of its header, or a
name. -/
theorem loopTarget?_hidesIn {init? : Option ForInit} {left : Expression}
    (h : ∀ n ∈ init?.toList.map ForInit.part, n.HidesIn)
    (hleft : loopTarget? init? = some left) :
    (Node.expression left).HidesIn := by
  unfold loopTarget? at hleft
  split at hleft
  · obtain rfl := Option.some.inj hleft
    exact h _ List.mem_cons_self
  · split at hleft
    · obtain rfl := Option.some.inj hleft
      exact .around rfl rfl (.identifier _)
    · cases hleft
  · cases hleft

omit hg in
theorem eachHeader_hidesIn {C : Context → Prop} {init? : Option ForInit}
    (hinit : ∀ n ∈ init?.toList.map ForInit.part, n.HidesIn) :
    Gives C (eachHeader g init?) (fun r => (Node.expression r.1).HidesIn) := by
  unfold eachHeader
  split
  · exact unexpected_gives _
  · rename_i left hleft
    exact .skip fun _ => .skip fun _ => .pure (loopTarget?_hidesIn hinit hleft)

theorem forHeader_hidesIn :
    Gives (Context.Uses .standard) (forHeader g)
      (fun h => ∀ n ∈ h.targets, n.HidesIn) := by
  refine (headerInit_hidesIn hg).bind fun init? hinit => ?_
  dsimp only
  refine .skip fun _ => .ite (fun _ => (eachHeader_hidesIn hinit).bind
    fun _ hr => .pure (List.forall_mem_singleton.2 hr)) (fun _ => ?_)
  refine .skip fun _ => .ite (fun _ => (eachHeader_hidesIn hinit).bind
    fun _ hr => .pure (List.forall_mem_singleton.2 hr)) (fun _ => ?_)
  exact .skip fun _ => .skip fun _ => .skip fun _ => .skip fun _ => .pure hinit

omit hg in
/-- At each level of the grammar, headers hide the tests of their first
part. -/
theorem levels_forHeader_hidesIn (n : Nat) :
    Gives (Context.Uses .standard) (Grammar.levels n).forHeader
      (fun h => ∀ n ∈ h.targets, n.HidesIn) := by
  cases n with
  | zero => exact tooDeep_gives
  | succ n =>
    exact .inBrackets (fun _ h => h)
      (forHeader_hidesIn (Grammar.levels_hidesIn n))

end Parse

open Parse in
/-- **A `for` loop's own `in` is never taken for an operator.** With the
standard table, every test for membership in what a loop sets – its first
values included – is in brackets, in a function, class or method, in the
block of an arrow function, or in the first branch of a choice. -/
theorem parseWith_targets_hidesIn (options : Options) (source : List Char) :
    (Node.program (parseWith options .standard source).program).Everywhere
      (Node.Stated fun x => ∀ n ∈ x.targets, n.HidesIn) := by
  have hnone : ∀ {x : Statement}, x.targets = [] →
      ∀ n ∈ x.targets, n.HidesIn := fun h n hn => nomatch h ▸ hn
  refine parseWith_stated ⟨fun _ => hnone rfl, fun n ctx s x t hctx h => ?_⟩
    options source
  rcases statementFrom_cases h with hends | h | h | h
  · exact hnone hends.targets_eq
  · obtain ⟨_, _, _, _, _, _, rfl, -⟩ := conditionalStatement_cases h
    exact hnone rfl
  · obtain ⟨_, _, _, _, rfl, -⟩ := whileStatement_cases h
    exact hnone rfl
  · obtain ⟨header, body, span, u, v, w, rfl, hheader, -⟩ :=
      forStatement_cases h
    rw [targets_loopOf]
    exact levels_forHeader_hidesIn n ctx u header v hctx hheader

end ScriptTree
