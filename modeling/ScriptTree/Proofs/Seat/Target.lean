import ScriptTree.Proofs.Origin.Logic
import ScriptTree.Proofs.Seat.Script

/-!
# What stands where something is assigned to or deleted

Only names and parts of objects can be assigned to, and only parts of
objects can be deleted. Where a script tries anything else an error node
stands in its place (`Parse.refuse`), and a problem is taken down that
takes up the same place of the text.

An error node in such a place can come from nowhere else
(`Folded.isError_eq_false`): what is refused is an operand with operators
folded onto it, and errors are mended where such an expression is asked
for, never inside the fold.
-/

namespace ScriptTree

/-! ## Targets -/

/-- **Why an error node stands where it does**: a problem with a given
message takes up its place, at least if errors are tolerated and there was
room for more problems than there are. -/
def ErrorNode.Explained (options : Options) (ds : List Diagnostic)
    (message : String) (node : ErrorNode) : Prop :=
  options.tolerant = true → ds.length < options.maxDiagnostics →
    ∃ d ∈ ds, d.message = message ∧ d.span = node.span
      ∧ d.kind = .recoverable ∧ d.severity = .error

namespace Expression

/-- **What may stand where something is assigned to**: a name, a part of an
object, or an error node of which more is known. -/
inductive IsAssigned (Refused : ErrorNode → Prop) : Expression → Prop where
  /-- A name. -/
  | identifier (id : Identifier) : IsAssigned Refused (.identifier id)
  /-- A part of an object, by its name. -/
  | member (object : Expression) (property : Identifier) (span : Span) :
      IsAssigned Refused (.member object property span)
  /-- A part of an object, by its index. -/
  | subscript (object index : Expression) (span : Span) :
      IsAssigned Refused (.subscript object index span)
  /-- Anything else has been refused. -/
  | error {node : ErrorNode} (refused : Refused node) :
      IsAssigned Refused (.error node)

/-- **What may stand where something is deleted**: a part of an object, or
an error node of which more is known. -/
inductive IsDeleted (Refused : ErrorNode → Prop) : Expression → Prop where
  /-- A part of an object, by its name. -/
  | member (object : Expression) (property : Identifier) (span : Span) :
      IsDeleted Refused (.member object property span)
  /-- A part of an object, by its index. -/
  | subscript (object index : Expression) (span : Span) :
      IsDeleted Refused (.subscript object index span)
  /-- Anything else has been refused. -/
  | error {node : ErrorNode} (refused : Refused node) :
      IsDeleted Refused (.error node)

/-- **An expression that assigns or deletes what it may**, or something
that has been refused with a problem that says so. -/
def TargetsFit (options : Options) (ds : List Diagnostic) :
    Expression → Prop
  | assignment target _ _ | compoundAssignment _ target _ _ =>
    target.IsAssigned
      (ErrorNode.Explained options ds "invalid assignment target")
  | unary .delete argument _ =>
    argument.IsDeleted (ErrorNode.Explained options ds
      "'delete' operand must be a member or subscript expression")
  | _ => True

variable {e : Expression}

/-- Whether the expression is a class or the superclass's view of an
object. -/
def isClassOrSuper : Expression → Bool
  | classDef _ | super _ => true
  | _ => false

/-- **An operand of no particular kind**: neither an error, nor a class, nor
the superclass's view of an object. -/
structure IsOperand (e : Expression) : Prop where
  /-- It is no error. -/
  isError_eq_false : e.isError = false
  /-- It is no class, and not `super` either. -/
  isClassOrSuper_eq_false : e.isClassOrSuper = false

/-- An operation is no error. -/
theorem isError_of_isPrimary (h : e.isPrimary = false) :
    e.isError = false := by
  cases e with
  | error => exact nomatch h
  | _ => rfl

/-- **What is in the seats of a tree** whose targets fit. A first operand is
no error, and neither is an operand behind an operator, so that an error
node in one of the other two seats has been refused. -/
def Targets (options : Options) (ds : List Diagnostic) :
    Seat → Expression → Prop
  | .assigned, e =>
    e.IsAssigned (ErrorNode.Explained options ds "invalid assignment target")
  | .deleted, e =>
    e.IsDeleted (ErrorNode.Explained options ds
      "'delete' operand must be a member or subscript expression")
  | .operand, e | .behind, e => e.isError = false
  | _, _ => True

end Expression

/-! ## No error is made in a fold -/

variable {C : Context → Prop} {g : Grammar}

namespace Parse

open ScriptTree.Action Expression

theorem functionExpression_isOperand (isAsync : Bool) (start : Nat) :
    Gives C (functionExpression g isAsync start) IsOperand := by
  refine .skip fun _ => .skip fun isGenerator => .skip fun _ =>
    .skip fun _ => .skip fun _ => .skip fun _ => .pure ?_
  cases isGenerator <;> exact ⟨rfl, rfl⟩

theorem arrowFunction_isOperand (isAsync : Bool)
    (params : List Identifier) (start : Nat) :
    Gives C (arrowFunction g isAsync params start) IsOperand := by
  refine .skip fun _ => .skip fun _ => ?_
  dsimp only
  exact .ite (fun _ => .skip fun _ => .skip fun _ => .pure ⟨rfl, rfl⟩)
    (fun _ => .skip fun _ => .skip fun _ => .pure ⟨rfl, rfl⟩)

theorem asyncFunction?_isOperand :
    Gives C (asyncFunction? g) (fun e? => ∀ e, e? = some e → e.IsOperand) := by
  have hsome : ∀ {p : Parse Expression}, Gives C p IsOperand →
      Gives C (do return some (← p))
        (fun e? => ∀ e, e? = some e → e.IsOperand) :=
    fun hp => hp.bind fun _ he => .pure fun _ heq => Option.some.inj heq ▸ he
  refine .skip fun _ => .ite (fun _ => .skip fun _ => ?_) (fun _ => .ite
    (fun _ => .skip fun _ => .skip fun _ => ?_) (fun _ => .ite
      (fun _ => .skip fun _ => .skip fun _ => ?_) (fun _ => .pure nofun)))
  · exact hsome (functionExpression_isOperand _ _)
  · exact hsome (arrowFunction_isOperand _ _ _)
  · exact hsome (arrowFunction_isOperand _ _ _)

theorem nameOrArrow_isOperand : Gives C (nameOrArrow g) IsOperand :=
  .skip fun _ => .skip fun _ => .ite
    (fun _ => .skip fun _ => arrowFunction_isOperand _ _ _)
    (fun _ => .skip fun _ => .pure ⟨rfl, rfl⟩)

theorem nameOperand_isOperand : Gives C (nameOperand g) IsOperand := by
  refine .skip fun _ => .ite (fun _ => ?_) (fun _ => nameOrArrow_isOperand)
  refine asyncFunction?_isOperand.bind fun e? he => ?_
  cases e? with
  | some e => exact .pure (he e rfl)
  | none => exact nameOrArrow_isOperand

theorem parenthesizedOrArrow_isOperand :
    Gives C (parenthesizedOrArrow g) IsOperand :=
  .skip fun _ => .ite
    (fun _ => .skip fun _ => arrowFunction_isOperand _ _ _)
    (fun _ => .skip fun _ => .skip fun _ => .pure ⟨rfl, rfl⟩)

/-- **What begins with a word of its own** is no error. -/
theorem keywordOperand_isError (k : Keyword) :
    Gives C (keywordOperand g k) (fun e => e.isError = false) := by
  unfold keywordOperand
  split
  case h_2 =>
    exact .skip fun _ => .skip fun _ => .ite (fun _ => .pure rfl)
      (fun _ => unexpected_gives _)
  case h_7 =>
    exact .skip fun _ => (functionExpression_isOperand _ _).mono
      fun _ h => h.isError_eq_false
  case h_9 => exact unexpected_gives _
  all_goals exact .skip fun _ => .pure rfl

/-- **An operand without operators** is no error. -/
theorem primary_isError :
    Gives C (primary g) (fun e => e.isError = false) := by
  refine .skip fun token => ?_
  split
  case h_1 => exact nameOperand_isOperand.mono fun _ h => h.isError_eq_false
  case h_8 =>
    exact parenthesizedOrArrow_isOperand.mono
      fun _ h => h.isError_eq_false
  case h_9 | h_10 =>
    exact .skip fun _ => .skip fun _ => .skip fun _ => .skip fun _ =>
      .pure rfl
  case h_11 => exact keywordOperand_isError _
  case h_12 => exact unexpected_gives _
  all_goals exact .skip fun _ => .pure rfl

/-- **An operator makes an operation** of what is behind it. -/
theorem applyBefore_isPrimary (token : Token) (argument : Expression) :
    Gives C (applyBefore token argument) (fun e => e.isPrimary = false) := by
  unfold applyBefore
  dsimp only
  split
  case h_3 => exact .skip fun _ => .pure rfl
  case h_12 => exact .throw _
  all_goals exact .pure rfl

theorem operand_isError :
    Gives C (operand g) (fun e => e.isError = false) := by
  refine .skip fun _ => .skip fun _ => ?_
  split
  · exact .ite (fun _ => .skip fun _ => .skip fun _ =>
      (applyBefore_isPrimary _ _).mono fun _ h => isError_of_isPrimary h)
      (fun _ => primary_isError)
  · exact primary_isError

/-- **So does an operator** of what is before it. -/
theorem applyOperator_isPrimary (left : Expression) (info : OperatorInfo) :
    Gives C (applyOperator g left info) (fun e => e.isPrimary = false) := by
  refine .skip fun token => .ite (fun _ => ?_) (fun _ => ?_)
  · unfold applyAfter
    dsimp only
    split
    · exact .pure rfl
    · exact .pure rfl
    · exact .skip fun _ => .skip fun _ => .pure rfl
    · exact .skip fun _ => .pure rfl
    · exact .skip fun _ => .skip fun _ => .skip fun _ => .pure rfl
    · exact .throw _
  split
  · unfold applyMark
    dsimp only
    split
    · exact .skip fun _ => .pure rfl
    · exact .skip fun _ => .skip fun _ => .pure rfl
    · exact .skip fun _ => .skip fun _ => .skip fun _ => .pure rfl
    · split
      · exact .skip fun _ => .skip fun _ => .pure rfl
      · split
        · exact .skip fun _ => .pure rfl
        · exact .throw _
  · exact .skip fun _ => .pure rfl
  · exact .skip fun _ => .pure rfl

end Parse

open Parse

/-- **No expression of a fold is an error.** -/
theorem Folded.isError_eq_false {min : Precedence} {ctx : Context}
    {s t : State} {e : Expression} (h : Folded g min ctx s e t) :
    e.isError = false := by
  cases h with
  | operand run =>
    exact operand_isError (C := fun _ => True) ctx s e t trivial run
  | operator _ _ run =>
    exact Expression.isError_of_isPrimary (applyOperator_isPrimary
      (C := fun _ => True) _ _ ctx _ e t trivial run)

/-! ## What is refused -/

open State

variable {root ctx : Context} {s t last : State} {e : Expression}

/-- **No act takes a problem back**, and none ends a tolerant parse. -/
theorem State.Act.grows (h : Act root s t) : s.Grows root t := by
  cases h with
  | bump => exact s.bump_grows root
  | rescan => exact s.rescanRegex_grows root
  | report => exact s.report_grows root ..
  | record | level => exact .of_eq rfl rfl

theorem State.Acts.grows (h : Acts root s t) : s.Grows root t := by
  induction h with
  | refl => exact .refl root s
  | tail _ hact ih => exact ih.trans hact.grows

/-- **A tolerant parse has not ended** in a state. -/
def State.Goes (root : Context) (last : State) : Prop :=
  root.options.tolerant = true → last.aborted = false

namespace Parse

open ScriptTree.Action Expression

variable (hgoes : State.Goes root last) (hctx : root.Within ctx)

include hgoes hctx

/-- **An error that is taken down** is to be found later, if there is still
room for another one then. -/
theorem reportError_explains {error : ParseError}
    (hlexical : error.isLexical = false) (node : ErrorNode)
    (hspan : node.span = error.span)
    (hlast : Acts root (reportError .recoverable error ctx s).2 last) :
    node.Explained root.options last.problems error.message := by
  intro htolerant hroom
  have hlast := hlast.grows
  have hrun : (reportError .recoverable error ctx s).2
      = s.report root .recoverable .error error.message error.span := by
    rw [← State.report_congr hctx]
    exact if_neg (Bool.eq_false_iff.1 hlexical)
  rw [hrun] at hlast
  have hgoing : s.aborted = false := by
    rw [← (s.report_grows root _ _ _ _).aborted_eq htolerant,
      ← hlast.aborted_eq htolerant]
    exact hgoes htolerant
  have hproblems := hlast.isPrefix
  rw [State.report_problems root s _ _ _ _ hgoing] at hproblems
  refine ⟨_, hproblems.subset ((root.options.mem_added _ _).resolve_right
    fun hfull => ?_), rfl, hspan.symm, rfl, rfl⟩
  exact absurd (Nat.le_trans hfull hproblems.length_le) (Nat.not_le.2 hroom)

/-- **What is refused** becomes an error node, with a problem in the same
place. -/
theorem refuse_explains {error : ParseError}
    (hlexical : error.isLexical = false) (hspan : error.span = e.span)
    (hlast : Acts root (refuse error e ctx s).2 last) :
    ∃ node, (refuse error e ctx s).1 = .error node
      ∧ node.Explained root.options last.problems error.message :=
  ⟨_, rfl, reportError_explains hgoes hctx hlexical _ hspan.symm hlast⟩

variable (herror : e.isError = false)

include herror

/-- **What an operand leaves to be assigned to** may be. -/
theorem assignmentTarget_fits
    (hlast : Acts root (assignmentTarget e ctx s).2 last) :
    (assignmentTarget e ctx s).1.IsAssigned (ErrorNode.Explained
      root.options last.problems "invalid assignment target") := by
  unfold assignmentTarget at hlast ⊢
  rw [herror, Bool.or_false] at hlast ⊢
  split at hlast
  · rename_i h
    rw [if_pos h]
    cases e with
    | identifier => exact .identifier _
    | member => exact .member _ _ _
    | subscript => exact .subscript _ _ _
    | _ => cases h
  · rename_i h
    rw [if_neg h]
    obtain ⟨node, hnode, hexplained⟩ :=
      refuse_explains hgoes hctx rfl rfl hlast
    rw [hnode]
    exact .error hexplained

/-- **What an operand leaves to be deleted** may be. -/
theorem deleteTarget_fits
    (hlast : Acts root (deleteTarget e ctx s).2 last) :
    (deleteTarget e ctx s).1.IsDeleted (ErrorNode.Explained root.options
      last.problems
      "'delete' operand must be a member or subscript expression") := by
  unfold deleteTarget at hlast ⊢
  rw [herror, Bool.or_false] at hlast ⊢
  split at hlast
  · rename_i h
    rw [if_pos h]
    cases e with
    | member => exact .member _ _ _
    | subscript => exact .subscript _ _ _
    | _ => cases h
  · rename_i h
    rw [if_neg h]
    obtain ⟨node, hnode, hexplained⟩ :=
      refuse_explains hgoes hctx rfl rfl hlast
    rw [hnode]
    exact .error hexplained

end Parse

/-! ## The targets of a tree -/

/-- **Targets settle** in their seats. -/
theorem Expression.targets_settle (hgoes : State.Goes root last) :
    Expression.Settles root last
      (Targets root.options last.problems) where
  error _ := trivial
  name _ := trivial
  plain _ := trivial
  exported _ := trivial
  assigned hctx _ hlast herror :=
    assignmentTarget_fits hgoes hctx herror hlast
  deleted hctx _ hlast herror := deleteTarget_fits hgoes hctx herror hlast
  folded _ _ _ _ _ _ := by
    intro _ _ _ hfold _
    unfold Seat.before
    split
    · trivial
    · exact hfold.isError_eq_false
  whole _ _ _ _ _ _ _ := fun _ _ _ hfold _ _ => hfold.isError_eq_false

/-- Where targets have their seats they fit. -/
theorem Node.Seated.targetsFit {options : Options} {ds : List Diagnostic}
    {n : Node} (h : n.Seated (Expression.Targets options ds)) :
    n.Traced (Expression.TargetsFit options ds) := by
  cases n with
  | expression e =>
    cases e with
    | assignment | compoundAssignment => exact h.1
    | unary operator argument span =>
      cases operator with
      | delete => exact h
      | _ => trivial
    | _ => trivial
  | _ => trivial

variable (options : Options) (table : OperatorTable) (source : List Char)

/-- **What is assigned to is a name or a part of an object, and what is
deleted is a part of an object.** Wherever a script has anything else there
is an error node in its place, and if errors are tolerated and there was
room for another problem, a problem with the same span says what is
wrong. -/
theorem parseWith_targetsFit :
    (Node.program (parseWith options table source).program).Everywhere
      (Node.Traced (Expression.TargetsFit options
        (parseWith options table source).diagnostics)) := by
  have hgoes : State.Goes (.ofSource source options table)
      (runScript source options table).2 :=
    (runScript_ensures options table source).1.good.aborted_eq
  exact fun n hn => (parseWith_seated options table source
    (Expression.targets_settle hgoes) n hn).targetsFit

/-- Neither can a call be assigned to nor a name be deleted. -/
example :
    (parse "f() = 1; delete a".toList).diagnostics.map
        (fun d => (d.message, d.span))
      = [("invalid assignment target", ⟨0, 3⟩),
        ("'delete' operand must be a member or subscript expression",
          ⟨16, 17⟩)] := by
  decide +kernel

end ScriptTree
