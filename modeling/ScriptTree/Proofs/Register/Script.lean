import ScriptTree.Proofs.Register.Plan

/-!
# No context and no level is left behind

Every production has a plan (`Parse.Production.planned`), and its routine
is the one that the plan is translated to. Whatever production is
run, and however it ends, its routine answers as it does and finds the
registers of its machine as they were: the context as a whole and the
number of levels. On the way there are never more levels than there may be,
and something is refused for its depth each time when there are as many,
and never otherwise (`Parse.production_restores`). For whole scripts this
is said of the routine of the script (`Parse.script_restores`).
-/

namespace ScriptTree

theorem State.initial_depth (ctx : Context) :
    (State.initial ctx).depth = some 0 :=
  (bump_kept ctx (blank ctx.source)).1

theorem State.initial_refusals (ctx : Context) :
    (State.initial ctx).refusals = 0 :=
  (bump_kept ctx (blank ctx.source)).2

namespace Parse

open ScriptTree.Action

variable {n i : Nat} {α : Type} {p : Parse α} {g : Grammar}

/-- **The productions over a grammar**, each with how many refusals it is
handed: those that go on after an error may be handed one, all others are
handed none. -/
inductive Production (g : Grammar) :
    (handed : Nat) → (α : Type) → Parse α → Prop where
  -- What counts as a level.
  | innerStatement : Production g 0 Statement g.statement
  | innerBlock : Production g 0 Block g.block
  | innerExpression (min : Precedence) :
      Production g 0 Expression (g.expression min)
  | innerBracketed (point : TolerantPoint) (closer : Punctuator) :
      Production g 0 Expression (g.bracketed point closer)
  | innerConsequent : Production g 0 Expression g.consequent
  | innerArguments : Production g 0 (List Expression) g.arguments
  | innerElements : Production g 0 (List Expression) g.elements
  | innerMembers : Production g 0 (List ObjectMember) g.members
  | innerMethods : Production g 0 (List Method) g.methods
  | innerParameters : Production g 0 (List Identifier) g.parameters
  | innerForHeader : Production g 0 ForHeader g.forHeader
  | innerCatchParameter : Production g 0 Identifier g.catchParameter
  | innerImportSpecifiers :
      Production g 0 (List ImportSpecifier) g.importSpecifiers
  | innerExportSpecifiers :
      Production g 0 (List ExportSpecifier) g.exportSpecifiers
  -- Going on after an error.
  | skipTo (point : TolerantPoint) (turns depth : Nat) (taken : Bool) :
      Production g 0 Bool (liftM (skipTo point turns depth taken))
  | mend (point : TolerantPoint) (start : Nat) (error : ParseError) :
      Production g error.refusals ErrorNode (mend point start error)
  | tolerant {α : Type} [Mendable α] {p : Parse α} (point : TolerantPoint)
      (hp : Production g 0 α p) :
      Production g 0 α (tolerant point p)
  | missingSeparator {α : Type} [Mendable α] (point : TolerantPoint)
      (expected : String) :
      Production g 0 α (missingSeparator point expected)
  | separatedFrom {α : Type} [Mendable α] {p : Parse α}
      (point : TolerantPoint) (closer : Punctuator) (turns : Nat)
      (found : List α) (hp : Production g 0 α p) :
      Production g 0 (List α) (separatedFrom point closer p turns found)
  | separated {α : Type} [Mendable α] {p : Parse α} (point : TolerantPoint)
      (closer : Punctuator) (hp : Production g 0 α p) :
      Production g 0 (List α) (separated point closer p)
  | skipStatement (turns depth : Nat) (taken : Bool) :
      Production g 0 Unit (liftM (skipStatement turns depth taken))
  | abandon (start : Nat) (error : ParseError) :
      Production g error.refusals (Option Statement)
        (liftM (abandon start error))
  -- Productions in common use.
  | advance : Production g 0 Token (liftM advance)
  | eat (p : Punctuator) : Production g 0 Bool (liftM (eat p))
  | unexpected (α : Type) (expected : String) :
      Production g 0 α (unexpected expected)
  | expectPunctuator (p : Punctuator) :
      Production g 0 Token (expectPunctuator p)
  | expectKeyword (k : Keyword) : Production g 0 Token (expectKeyword k)
  | expectWord (word : String) : Production g 0 Token (expectWord word)
  | identifier : Production g 0 Identifier identifier
  | propertyName : Production g 0 Identifier propertyName
  | literal (kind : LiteralKind) : Production g 0 Literal (literal kind)
  | moduleName : Production g 0 Literal moduleName
  | expression : Production g 0 Expression (expression g)
  | assignment : Production g 0 Expression (assignment g)
  | statement : Production g 0 Statement (statement g)
  | expressionBefore (closer : Punctuator) :
      Production g 0 Expression (expressionBefore g closer)
  | condition : Production g 0 Expression (condition g)
  | parameterList : Production g 0 (List Identifier) (parameterList g)
  | statementsFrom (turns : Nat) (found : List Statement) :
      Production g 0 (List Statement) (liftM (statementsFrom g turns found))
  | statementList (listEnd : ListEnd) :
      Production g 0 (List Statement) (liftM (statementList g listEnd))
  -- Functions, classes and methods.
  | parameterNamesFrom (turns : Nat) (found : List Identifier) :
      Production g 0 (List Identifier) (parameterNamesFrom turns found)
  | parameterNames : Production g 0 (List Identifier) parameterNames
  | optionalIdentifier : Production g 0 (Option Identifier) optionalIdentifier
  | functionExpression (isAsync : Bool) (start : Nat) :
      Production g 0 Expression (functionExpression g isAsync start)
  | className (mayBeUnnamed : Bool) :
      Production g 0 (Option Identifier) (className mayBeUnnamed)
  | classParent : Production g 0 (Option Expression) (classParent g)
  | classDefinition (mayBeUnnamed : Bool) :
      Production g 0 Class (classDefinition g mayBeUnnamed)
  | modifier (word : String) : Production g 0 Bool (liftM (modifier word))
  | methodKind : Production g 0 MethodKind (liftM methodKind)
  | methodName : Production g 0 Identifier methodName
  | method (isStatic : Bool) (start : Nat) :
      Production g 0 Method (method g isStatic start)
  | classMethodsFrom (turns : Nat) (found : List Method) :
      Production g 0 (List Method) (classMethodsFrom g turns found)
  | classMethods : Production g 0 (List Method) (classMethods g)
  -- Operands.
  | regexLiteral : Production g 0 Literal regexLiteral
  | rescannedRegex : Production g 0 Literal rescannedRegex
  | arrowFunction (isAsync : Bool) (params : List Identifier) (start : Nat) :
      Production g 0 Expression (arrowFunction g isAsync params start)
  | asyncFunction? : Production g 0 (Option Expression) (asyncFunction? g)
  | nameOrArrow : Production g 0 Expression (nameOrArrow g)
  | nameOperand : Production g 0 Expression (nameOperand g)
  | parenthesizedOrArrow : Production g 0 Expression (parenthesizedOrArrow g)
  | arrayElements : Production g 0 (List Expression) (arrayElements g)
  | arrayLiteral : Production g 0 Expression (arrayLiteral g)
  | pairWith (key : PropertyKey) (start : Nat) :
      Production g 0 ObjectMember (pairWith g key start)
  | objectMember : Production g 0 ObjectMember (objectMember g)
  | objectMembers : Production g 0 (List ObjectMember) (objectMembers g)
  | objectLiteral : Production g 0 Expression (objectLiteral g)
  | superOperand : Production g 0 Expression superOperand
  | keywordOperand (k : Keyword) :
      Production g 0 Expression (keywordOperand g k)
  | primary : Production g 0 Expression (primary g)
  -- Expressions.
  | refuse (error : ParseError) (e : Expression) :
      Production g 0 Expression (liftM (refuse error e))
  | assignmentTarget (e : Expression) :
      Production g 0 Expression (liftM (assignmentTarget e))
  | deleteTarget (e : Expression) :
      Production g 0 Expression (liftM (deleteTarget e))
  | applyBefore (token : Token) (argument : Expression) :
      Production g 0 Expression (applyBefore token argument)
  | operand : Production g 0 Expression (operand g)
  | callArguments : Production g 0 (List Expression) (callArguments g)
  | applyAfter (left : Expression) (token : Token) :
      Production g 0 Expression (applyAfter g left token)
  | applyMark (left : Expression) (token : Token) (p : Punctuator)
      (right : Precedence) :
      Production g 0 Expression (applyMark g left token p right)
  | applyOperator (left : Expression) (info : OperatorInfo) :
      Production g 0 Expression (applyOperator g left info)
  | operatorAt? (min : Precedence) :
      Production g 0 (Option OperatorInfo) (liftM (operatorAt? min))
  | foldOperators (min : Precedence) (turns : Nat) (left : Expression) :
      Production g 0 Expression (foldOperators g min turns left)
  | expressionFrom (min : Precedence) :
      Production g 0 Expression (expressionFrom g min)
  -- Terminators and declarations.
  | reportMissingTerminator (atEnd : Bool) :
      Production g 0 Unit (liftM (reportMissingTerminator atEnd))
  | terminator (mayTrail : Bool) :
      Production g 0 Unit (liftM (terminator mayTrail))
  | declarationEnd : Production g 0 Unit (liftM declarationEnd)
  | atStatementEnd : Production g 0 Bool (liftM atStatementEnd)
  | initializer? : Production g 0 (Option Expression) (initializer? g)
  | binding : Production g 0 Declarator (binding g)
  | anotherBinding (mended : Bool) :
      Production g 0 Bool (liftM (anotherBinding mended))
  | bindingsFrom (turns : Nat) (found : List Declarator) :
      Production g 0 (List Declarator) (bindingsFrom g turns found)
  | variableDeclaration :
      Production g 0 VariableDeclaration (variableDeclaration g)
  | declarationStatement : Production g 0 Statement (declarationStatement g)
  | expressionEnd (e : Expression) :
      Production g 0 Unit (liftM (expressionEnd e))
  | expressionStatement : Production g 0 Statement (expressionStatement g)
  -- Conditions and loops.
  | alternative? : Production g 0 (Option Statement) (alternative? g)
  | conditionalStatement : Production g 0 Statement (conditionalStatement g)
  | caseTest : Production g 0 (Option Expression) (caseTest g)
  | switchCase : Production g 0 SwitchCase (switchCase g)
  | switchCasesFrom (turns : Nat) (found : List SwitchCase) :
      Production g 0 (List SwitchCase) (switchCasesFrom g turns found)
  | switchStatement : Production g 0 Statement (switchStatement g)
  | whileStatement : Production g 0 Statement (whileStatement g)
  | doStatement : Production g 0 Statement (doStatement g)
  | headerPart (closer : Punctuator) :
      Production g 0 Expression (headerPart g closer)
  | optionalHeaderPart (closer : Punctuator) :
      Production g 0 (Option Expression) (optionalHeaderPart g closer)
  | headerInit : Production g 0 (Option ForInit) (headerInit g)
  | eachHeader (init? : Option ForInit) :
      Production g 0 (Expression × Expression) (eachHeader g init?)
  | forHeader : Production g 0 ForHeader (forHeader g)
  | forStatement : Production g 0 Statement (forStatement g)
  -- Imports and exports.
  | specifiersFrom {α : Type} {p : Parse α} (turns : Nat) (found : List α)
      (hp : Production g 0 α p) :
      Production g 0 (List α) (specifiersFrom p turns found)
  | specifiers {α : Type} {p : Parse α} (hp : Production g 0 α p) :
      Production g 0 (List α) (specifiers p)
  | alias? {p : Parse Identifier} (hp : Production g 0 Identifier p) :
      Production g 0 (Option Identifier) (alias? p)
  | importSpecifier : Production g 0 ImportSpecifier importSpecifier
  | exportSpecifier : Production g 0 ExportSpecifier exportSpecifier
  | importList : Production g 0 (List ImportSpecifier) (importList g)
  | exportList : Production g 0 (List ExportSpecifier) (exportList g)
  | fromClause : Production g 0 Literal fromClause
  | importDefault : Production g 0 (Option Identifier) importDefault
  | moreImports (default? : Option Identifier) :
      Production g 0 Bool (liftM (moreImports default?))
  | importRest (default? : Option Identifier) (start : Nat) :
      Production g 0 ImportClause (importRest g default? start)
  | importClause : Production g 0 ImportClause (importClause g)
  | importClause? : Production g 0 (Option ImportClause) (importClause? g)
  | importStatement : Production g 0 Statement (importStatement g)
  | exportAll : Production g 0 Export exportAll
  | exportNamed : Production g 0 Export (exportNamed g)
  | exportDefault : Production g 0 Export (exportDefault g)
  | exportVariables : Production g 0 Export (exportVariables g)
  | exportAsync : Production g 0 Export (exportAsync g)
  | exported : Production g 0 Export (exported g)
  | exportStatement : Production g 0 Statement (exportStatement g)
  -- Statements.
  | blockFrom : Production g 0 Block (blockFrom g)
  | catchParameter? : Production g 0 (Option Identifier) (catchParameter? g)
  | catchClause? : Production g 0 (Option CatchClause) (catchClause? g)
  | finallyBlock? : Production g 0 (Option Block) (finallyBlock? g)
  | tryStatement : Production g 0 Statement (tryStatement g)
  | jumpStatement (make : Span → Statement) :
      Production g 0 Statement (jumpStatement make)
  | optionalValue : Production g 0 (Option Expression) (optionalValue g)
  | valueStatement (make : Option Expression → Span → Statement) :
      Production g 0 Statement (valueStatement g make)
  | throwStatement : Production g 0 Statement (throwStatement g)
  | keywordStatement (k : Keyword) :
      Production g 0 Statement (keywordStatement g k)
  | statementFrom : Production g 0 Statement (statementFrom g)
  | reportEmpty : Production g 0 Unit (liftM reportEmpty)
  | script : Production g 0 (List Statement) (liftM (script g))

/-- **A production of a grammar that has a plan** over any grammar. -/
def Planned (g : Grammar) (handed : Nat) (p : Parse α) : Prop :=
  ∃ f : Grammar → Parse α, f g = p ∧ Nonempty (Plan False handed f)

theorem Plan.planned {f : Grammar → Parse α} (plan : Plan False i f) :
    Planned g i (f g) := ⟨f, rfl, ⟨plan⟩⟩

/-- **Every production has a plan.** -/
theorem Production.planned (hp : Production g i α p) : Planned g i p := by
  induction hp with
  -- What counts as a level.
  | innerStatement => exact (Plan.enter .statement).planned
  | innerBlock => exact (Plan.enter .block).planned
  | innerExpression min => exact (Plan.enter (.expression min)).planned
  | innerBracketed point closer =>
    exact (Plan.enter (.bracketed point closer)).planned
  | innerConsequent => exact (Plan.enter .consequent).planned
  | innerArguments => exact (Plan.enter .arguments).planned
  | innerElements => exact (Plan.enter .elements).planned
  | innerMembers => exact (Plan.enter .members).planned
  | innerMethods => exact (Plan.enter .methods).planned
  | innerParameters => exact (Plan.enter .parameters).planned
  | innerForHeader => exact (Plan.enter .forHeader).planned
  | innerCatchParameter => exact (Plan.enter .catchParameter).planned
  | innerImportSpecifiers => exact (Plan.enter .importSpecifiers).planned
  | innerExportSpecifiers => exact (Plan.enter .exportSpecifiers).planned
  -- Going on after an error.
  | skipTo point turns depth taken =>
    exact (Plan.skipTo point turns depth taken).planned
  | mend point start error => exact (Plan.mend point start error nofun).planned
  | tolerant point hp ih =>
    obtain ⟨_, rfl, ⟨plan⟩⟩ := ih
    exact (Plan.tolerant point plan).planned
  | missingSeparator point expected =>
    exact (Plan.missingSeparator point expected).planned
  | separatedFrom point closer turns found hp ih =>
    obtain ⟨_, rfl, ⟨plan⟩⟩ := ih
    exact (Plan.separatedFrom point closer plan turns found).planned
  | separated point closer hp ih =>
    obtain ⟨_, rfl, ⟨plan⟩⟩ := ih
    exact (Plan.separated point closer plan).planned
  | skipStatement turns depth taken =>
    exact (Plan.skipStatement turns depth taken).planned
  | abandon start error => exact (Plan.abandon start error).planned
  -- Productions in common use.
  | advance => exact Plan.advance.planned
  | eat p => exact (Plan.eat p).planned
  | unexpected _ expected => exact (Plan.unexpected expected).planned
  | expectPunctuator p => exact (Plan.expectPunctuator p).planned
  | expectKeyword k => exact (Plan.expectKeyword k).planned
  | expectWord word => exact (Plan.expectWord word).planned
  | identifier => exact Plan.identifier.planned
  | propertyName => exact Plan.propertyName.planned
  | literal kind => exact (Plan.literal kind).planned
  | moduleName => exact Plan.moduleName.planned
  | expression => exact Plan.expression.planned
  | assignment => exact Plan.assignment.planned
  | statement => exact Plan.statement.planned
  | expressionBefore closer => exact (Plan.expressionBefore closer).planned
  | condition => exact Plan.condition.planned
  | parameterList => exact Plan.parameterList.planned
  | statementsFrom turns found =>
    exact (Plan.statementsFrom turns found).planned
  | statementList listEnd => exact (Plan.statementList listEnd).planned
  -- Functions, classes and methods.
  | parameterNamesFrom turns found =>
    exact (Plan.parameterNamesFrom turns found).planned
  | parameterNames => exact Plan.parameterNames.planned
  | optionalIdentifier => exact Plan.optionalIdentifier.planned
  | functionExpression isAsync start =>
    exact (Plan.functionExpression isAsync start).planned
  | className mayBeUnnamed => exact (Plan.className mayBeUnnamed).planned
  | classParent => exact Plan.classParent.planned
  | classDefinition mayBeUnnamed =>
    exact (Plan.classDefinition mayBeUnnamed).planned
  | modifier word => exact (Plan.modifier word).planned
  | methodKind => exact Plan.methodKind.planned
  | methodName => exact Plan.methodName.planned
  | method isStatic start => exact (Plan.method isStatic start).planned
  | classMethodsFrom turns found =>
    exact (Plan.classMethodsFrom turns found).planned
  | classMethods => exact Plan.classMethods.planned
  -- Operands.
  | regexLiteral => exact Plan.regexLiteral.planned
  | rescannedRegex => exact Plan.rescannedRegex.planned
  | arrowFunction isAsync params start =>
    exact (Plan.arrowFunction isAsync params start).planned
  | asyncFunction? => exact Plan.asyncFunction?.planned
  | nameOrArrow => exact Plan.nameOrArrow.planned
  | nameOperand => exact Plan.nameOperand.planned
  | parenthesizedOrArrow => exact Plan.parenthesizedOrArrow.planned
  | arrayElements => exact Plan.arrayElements.planned
  | arrayLiteral => exact Plan.arrayLiteral.planned
  | pairWith key start => exact (Plan.pairWith key start).planned
  | objectMember => exact Plan.objectMember.planned
  | objectMembers => exact Plan.objectMembers.planned
  | objectLiteral => exact Plan.objectLiteral.planned
  | superOperand => exact Plan.superOperand.planned
  | keywordOperand k => exact (Plan.keywordOperand k).planned
  | primary => exact Plan.primary.planned
  -- Expressions.
  | refuse error e => exact (Plan.refuse error e).planned
  | assignmentTarget e => exact (Plan.assignmentTarget e).planned
  | deleteTarget e => exact (Plan.deleteTarget e).planned
  | applyBefore token argument =>
    exact (Plan.applyBefore token argument nofun).planned
  | operand => exact Plan.operand.planned
  | callArguments => exact Plan.callArguments.planned
  | applyAfter left token => exact (Plan.applyAfter left token nofun).planned
  | applyMark left token p right =>
    exact (Plan.applyMark left token p right nofun).planned
  | applyOperator left info => exact (Plan.applyOperator left info).planned
  | operatorAt? min => exact (Plan.operatorAt? min).planned
  | foldOperators min turns left =>
    exact (Plan.foldOperators min turns left).planned
  | expressionFrom min => exact (Plan.expressionFrom min).planned
  -- Terminators and declarations.
  | reportMissingTerminator atEnd =>
    exact (Plan.reportMissingTerminator atEnd).planned
  | terminator mayTrail => exact (Plan.terminator mayTrail).planned
  | declarationEnd => exact Plan.declarationEnd.planned
  | atStatementEnd => exact Plan.atStatementEnd.planned
  | initializer? => exact Plan.initializer?.planned
  | binding => exact Plan.binding.planned
  | anotherBinding mended => exact (Plan.anotherBinding mended).planned
  | bindingsFrom turns found => exact (Plan.bindingsFrom turns found).planned
  | variableDeclaration => exact Plan.variableDeclaration.planned
  | declarationStatement => exact Plan.declarationStatement.planned
  | expressionEnd e => exact (Plan.expressionEnd e).planned
  | expressionStatement => exact Plan.expressionStatement.planned
  -- Conditions and loops.
  | alternative? => exact Plan.alternative?.planned
  | conditionalStatement => exact Plan.conditionalStatement.planned
  | caseTest => exact Plan.caseTest.planned
  | switchCase => exact Plan.switchCase.planned
  | switchCasesFrom turns found =>
    exact (Plan.switchCasesFrom turns found).planned
  | switchStatement => exact Plan.switchStatement.planned
  | whileStatement => exact Plan.whileStatement.planned
  | doStatement => exact Plan.doStatement.planned
  | headerPart closer => exact (Plan.headerPart closer).planned
  | optionalHeaderPart closer => exact (Plan.optionalHeaderPart closer).planned
  | headerInit => exact Plan.headerInit.planned
  | eachHeader init? => exact (Plan.eachHeader init?).planned
  | forHeader => exact Plan.forHeader.planned
  | forStatement => exact Plan.forStatement.planned
  -- Imports and exports.
  | specifiersFrom turns found hp ih =>
    obtain ⟨_, rfl, ⟨plan⟩⟩ := ih
    exact (Plan.specifiersFrom plan turns found).planned
  | specifiers hp ih =>
    obtain ⟨_, rfl, ⟨plan⟩⟩ := ih
    exact (Plan.specifiers plan).planned
  | alias? hp ih =>
    obtain ⟨_, rfl, ⟨plan⟩⟩ := ih
    exact (Plan.alias? plan).planned
  | importSpecifier => exact Plan.importSpecifier.planned
  | exportSpecifier => exact Plan.exportSpecifier.planned
  | importList => exact Plan.importList.planned
  | exportList => exact Plan.exportList.planned
  | fromClause => exact Plan.fromClause.planned
  | importDefault => exact Plan.importDefault.planned
  | moreImports default? => exact (Plan.moreImports default?).planned
  | importRest default? start => exact (Plan.importRest default? start).planned
  | importClause => exact Plan.importClause.planned
  | importClause? => exact Plan.importClause?.planned
  | importStatement => exact Plan.importStatement.planned
  | exportAll => exact Plan.exportAll.planned
  | exportNamed => exact Plan.exportNamed.planned
  | exportDefault => exact Plan.exportDefault.planned
  | exportVariables => exact Plan.exportVariables.planned
  | exportAsync => exact Plan.exportAsync.planned
  | exported => exact Plan.exported.planned
  | exportStatement => exact Plan.exportStatement.planned
  -- Statements.
  | blockFrom => exact Plan.blockFrom.planned
  | catchParameter? => exact Plan.catchParameter?.planned
  | catchClause? => exact Plan.catchClause?.planned
  | finallyBlock? => exact Plan.finallyBlock?.planned
  | tryStatement => exact Plan.tryStatement.planned
  | jumpStatement make => exact (Plan.jumpStatement make).planned
  | optionalValue => exact Plan.optionalValue.planned
  | valueStatement make => exact (Plan.valueStatement make).planned
  | throwStatement => exact Plan.throwStatement.planned
  | keywordStatement k => exact (Plan.keywordStatement k).planned
  | statementFrom => exact Plan.statementFrom.planned
  | reportEmpty => exact Plan.reportEmpty.planned
  | script => exact Plan.script.planned

/-- **No context and no level is left behind.** Each production has a
routine. Begun in a machine with as many levels to go as the production,
any such routine answers as the production does, whether that succeeds or
not; the register and the number of levels are then as they were before;
there have never been more levels than there may be; and each time when
there were as many when one was to be entered, and only then, something
was refused for its depth. -/
theorem production_restores {n i : Nat} {α : Type} {p : Parse α}
    (hp : Production (.levels n) i α p) :
    (∃ q : Routine α, q.CarriesOut n i p)
      ∧ ∀ (q : Routine α) (m : Machine) (d : Nat), q.CarriesOut n i p →
        m.state.depth = some d → d + n = m.limit →
        m.Restored i p (q m) := by
  obtain ⟨_, rfl, ⟨plan⟩⟩ := hp.planned
  have hq := plan.carriesOut (Grammar.routines_carriesOut n)
  exact ⟨⟨_, hq⟩, fun _ _ _ hq hdepth hlimit => hq.restores hdepth hlimit⟩

/-- With one level a statement can be entered and no expression in it: the
routine finds as many levels as there may be once. And where errors stand a
condition may fail between its parentheses, at the second of two names: the
register, which was another one there, is as it was before. -/
theorem production_restores_refusal :
    (∃ q : Routine (List Statement),
      q.CarriesOut 1 0 (liftM (script (.levels 1)))
        ∧ (q (.initial (.ofSource "(a".toList
            { Options.standard with maxNestingDepth := 1 }
            .standard))).2.atLimit = 1)
      ∧ ∃ (q : Routine Expression) (m : Machine),
        q.CarriesOut 3 0 (condition (.levels 3))
          ∧ (q m).1.isOk = false ∧ (q m).2.state.here = 3
          ∧ m.context.inBrackets ≠ m.context
          ∧ (q m).2.context = m.context
          ∧ (q m).2.state.depth = m.state.depth := by
  constructor
  · obtain ⟨⟨q, hq⟩, hrestores⟩ :=
      production_restores (.script (g := .levels 1))
    have h := hrestores q (.initial (.ofSource "(a".toList
      { Options.standard with maxNestingDepth := 1 } .standard)) 0 hq
      (State.initial_depth _) rfl
    have hrefusals : (runScript "(a".toList
        { Options.standard with maxNestingDepth := 1 }
        .standard).2.refusals = 1 := by decide +kernel
    have hcount := h.atLimit_eq
    rw [h.answer_eq, h.state_eq] at hcount
    change _ + State.refusals (State.initial _) + 0
      = 0 + State.refusals (runScript _ _ _).2 + 0 at hcount
    rw [hrefusals, State.initial_refusals] at hcount
    exact ⟨q, hq, by omega⟩
  · let ctx := Context.ofSource "(a b)".toList
      { Options.standard with tolerant := false, maxNestingDepth := 3 }
      .standard
    obtain ⟨⟨q, hq⟩, hrestores⟩ :=
      production_restores (.condition (g := .levels 3))
    have h := hrestores q (.initial ctx) 0 hq (State.initial_depth _) rfl
    have hrun : (condition (.levels 3) ctx (.initial ctx)).1.isOk = false
        ∧ (condition (.levels 3) ctx (.initial ctx)).2.here = 3 := by
      decide +kernel
    have hother : ctx.inBrackets ≠ ctx := fun h =>
      Bool.noConfusion (congrArg Context.newlinesMatter h)
    refine ⟨q, .initial ctx, hq, ?_, ?_, hother, h.context_eq, h.depth_eq⟩
    · rw [h.answer_eq]
      exact hrun.1
    · rw [h.state_eq]
      exact hrun.2

/-- **The routine of a script** with so many levels to go. -/
def scriptRoutine (levels : Nat) : Routine (List Statement) :=
  (Plan.script (K := False)).routine (Grammar.routines levels)

/-- **A whole script** is carried out by its routine with all the levels
there may be. In the end the context is that of a script again, no level is
entered, and the statements that were given up for their depth are as many
as the entries that found no level left. -/
theorem script_restores (source : List Char) (options : Options)
    (table : OperatorTable) :
    ∃ m, scriptRoutine options.maxNestingDepth
          (.initial (.ofSource source options table))
        = (.ok (runScript source options table).1, m)
      ∧ m.state = (runScript source options table).2
      ∧ m.context = .ofSource source options table
      ∧ m.state.depth = some 0
      ∧ m.deepest ≤ options.maxNestingDepth
      ∧ m.atLimit = m.state.refusals := by
  have hq := (Plan.script (K := False)).carriesOut
    (Grammar.routines_carriesOut options.maxNestingDepth)
  have h := hq.restores
    (m := .initial (.ofSource source options table))
    (State.initial_depth _) (Nat.zero_add _)
  change Machine.Restored _ _ _ (scriptRoutine _ _) at h
  generalize hrun : scriptRoutine options.maxNestingDepth
    (.initial (.ofSource source options table)) = r at h
  refine ⟨r.2, Prod.ext h.answer_eq rfl, h.state_eq,
    h.context_eq, h.depth_eq.trans (State.initial_depth _), ?_, ?_⟩
  · exact Nat.le_trans h.deepest_le (Nat.le_of_eq (Nat.zero_max _))
  · have hcount := h.atLimit_eq
    rw [h.answer_eq] at hcount
    change r.2.atLimit + State.refusals (.initial _) + 0
      = 0 + r.2.state.refusals + 0 at hcount
    rw [State.initial_refusals] at hcount
    omega

/-- A name in parentheses is on the fourth level: the statement, its
expression, the parentheses and the expression there. -/
example : (scriptRoutine 9 (.initial (.ofSource "(a)".toList
    { Options.standard with maxNestingDepth := 9 } .standard))).2.deepest
      = 4 := by decide +kernel

end Parse

end ScriptTree
