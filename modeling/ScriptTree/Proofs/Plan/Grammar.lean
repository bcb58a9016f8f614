import ScriptTree.Proofs.Parse.Expression
import ScriptTree.Proofs.Parse.Recovery
import ScriptTree.Proofs.Plan.Basic

/-!
# Every production has a plan

The plan of a production follows its text: it is what the production is
put together from, in the same order. What it asks its grammar for is only
named, and what is read under such a name, once the level has been entered,
has a plan as well (`Grammar.Entry.plan`). So what is proved of all plans,
and of a grammar if it holds of the one below, is proved of the grammars of
all levels.

Some productions look at a token first and blame it later. In their plans
the token is met or taken (`Parse.Plan.meet`, `Parse.Plan.take`), so that
what is known of it is still known where it is blamed. And the loop over
the statements of a list looks at a failed statement and gives it up later,
which is done in one go here (`Parse.statementsFrom_succ`).
-/

namespace ScriptTree

variable {α : Type} {K : Prop}

namespace Parse

open ScriptTree.Action

namespace Plan

/-! ## The productions in common use -/

/-- A mark that must come next. -/
def expectPunctuator (p : Punctuator) : Plan K 0 fun _ => expectPunctuator p :=
  .bind (.atPunctuator p) fun _ => .ite .advance (.unexpected _)

def expectKeyword (k : Keyword) : Plan K 0 fun _ => expectKeyword k :=
  .bind (.atKeyword k) fun _ => .ite .advance (.unexpected _)

def expectWord (word : String) : Plan K 0 fun _ => expectWord word :=
  .bind (.atWord word) fun _ => .ite .advance (.unexpected _)

/-- A name. -/
def identifier : Plan K 0 fun _ => identifier :=
  .bind (.atKind .identifier) fun _ =>
    .ite (.bind .advance fun _ => .pure _) (.unexpected _)

/-- The name of a property. -/
def propertyName : Plan K 0 fun _ => propertyName :=
  .bind .current fun _ =>
    .ite (.bind .advance fun _ => .pure _) (.unexpected _)

def literal (kind : LiteralKind) : Plan K 0 fun _ => literal kind :=
  .bind .advance fun _ => .pure _

/-- The name of a module. -/
def moduleName : Plan K 0 fun _ => moduleName :=
  .bind (.atKind .string) fun _ => .ite (.literal .string) (.unexpected _)

def expression : Plan K 0 fun g => expression g := .enterExpression .lowest

def assignment : Plan K 0 fun g => assignment g := .enterExpression .assignment

/-- **A statement**, one level deeper. It is on record before the level is
entered. -/
def statement : Plan K 0 fun g => statement g :=
  .bind .current fun token =>
    .bind (.record (.statement token.span.start token.kind)) fun _ =>
      .enter .statement

/-- An expression with a given mark behind it. -/
def expressionBefore (closer : Punctuator) :
    Plan K 0 fun g => expressionBefore g closer :=
  .bind .expression fun e => .bind .current fun _ =>
    .ite (.pure e) (.unexpected _)

/-- **An expression in parentheses**: the level is entered behind the
first of them and left before the second. -/
def condition : Plan K 0 fun g => condition g :=
  .bind (.discard (.expectPunctuator _)) fun _ =>
    .bind (.enterBracketed _ _) fun e =>
      .bind (.discard (.expectPunctuator _)) fun _ => .pure e

/-- Parameters in parentheses. -/
def parameterList : Plan K 0 fun g => parameterList g :=
  .bind (.discard (.expectPunctuator _)) fun _ => .enter .parameters

end Plan

/-! ## Statement lists -/

/-- **One turn of the loop over the statements of a list**, with the
recovery from a failure in one piece. -/
theorem statementsFrom_succ (g : Grammar) (turns : Nat)
    (found : List Statement) :
    (liftM (statementsFrom g (turns + 1) found) : Parse _) = (do
      if (← get).aborted || (← atListEnd) then return found.reverse
      else
        let start ← here
        match ← orAbandon start (statement g) with
        | some x => statementsFrom g turns (x :: found)
        | none => statementsFrom g turns found) := by
  have hbind {α β : Type} (x : Action α) (f : α → Action β)
      (ctx : Context) (s : State) : (liftM (x >>= f) : Parse β) ctx s
        = (liftM (f (x ctx s).1) : Parse β) ctx (x ctx s).2 := rfl
  have hlift {α : Type} (x : Action α) (ctx : Context) (s : State) :
      (liftM x : Parse α) ctx s = (.ok (x ctx s).1, (x ctx s).2) := rfl
  funext ctx s
  show (liftM (ite _ _ _ : Action _) : Parse _) ctx s
    = (ite _ _ _ : Parse _) ctx s
  split
  · rfl
  have hhere : here ctx s = (s.here, s) := rfl
  have hattempt : attempt (statement g) ctx s = statement g ctx s := rfl
  rw [hbind, bind_run, hlift here, hhere]
  dsimp only
  rw [hbind, hattempt, bind_run, orAbandon_run]
  obtain ⟨e | x, t⟩ := statement g ctx s
  · dsimp only
    rw [hbind, hlift (abandon s.here e)]
    obtain ⟨_ | x, u⟩ := abandon s.here e ctx t <;> rfl
  · rfl

namespace Plan

/-- **The loop over statements**, by its turns (`statementsFrom_succ`). -/
def statementsFrom : (turns : Nat) → (found : List Statement) →
    Action.Plan K 0 fun g => statementsFrom g turns found
  | 0, found => Action.Plan.pure found.reverse
  | turns + 1, found =>
    .same rfl (funext fun g => (statementsFrom_succ g turns found).symm)
      (.view (fun _ _ => rfl) fun _ => .bind .atListEnd fun _ =>
        .ite (.pure found.reverse) (.bind .here fun start =>
          .bind (.orAbandon start .statement) fun
            | some x => .statementsFrom turns (x :: found)
            | none => .statementsFrom turns found))

/-- **A list of statements**, for which the register is set. -/
def statementList (listEnd : ListEnd) :
    Action.Plan K 0 fun g => statementList g listEnd :=
  .inList listEnd (.consult (fun _ _ _ => rfl) fun ctx =>
    .statementsFrom ctx.turns [])

/-! ## Functions, classes and methods -/

/-- The loop over the parameters of a function. -/
def parameterNamesFrom : (turns : Nat) → (found : List Identifier) →
    Plan K 0 fun _ => parameterNamesFrom turns found
  | 0, found => .pure found.reverse
  | turns + 1, found =>
    .bind .identifier fun id => .bind (.eat .comma) fun _ =>
      .ite (.parameterNamesFrom turns (id :: found)) (.pure _)

def parameterNames : Plan K 0 fun _ => parameterNames :=
  .bind (.atPunctuator .rParen) fun _ =>
    have rest (params : List Identifier) :=
      .bind (.discard (.expectPunctuator .rParen)) fun _ => .pure params
    .ite (.bind (.pure []) rest) (.consult (fun _ _ _ => rfl) fun ctx =>
      .bind (.parameterNamesFrom ctx.turns []) rest)

def optionalIdentifier : Plan K 0 fun _ => optionalIdentifier :=
  .bind (.atKind .identifier) fun _ =>
    .ite (.bind .identifier fun _ => .pure _) (.pure none)

/-- **A function.** Its parameters and its body are a level deeper. -/
def functionExpression (isAsync : Bool) (start : Nat) :
    Plan K 0 fun g => functionExpression g isAsync start :=
  .bind (.discard (.expectKeyword _)) fun _ => .bind (.eat .star) fun _ =>
    .bind .optionalIdentifier fun _ =>
      .bind .parameterList fun _ => .bind (.enter .block) fun _ =>
        .bind (.spanFrom start) fun _ => .pure _

def className (mayBeUnnamed : Bool) :
    Plan K 0 fun _ => className mayBeUnnamed :=
  .ite .optionalIdentifier (.bind .identifier fun _ => .pure _)

/-- What a class extends. -/
def classParent : Plan K 0 fun g => classParent g :=
  .bind (.atKeyword _) fun _ => .ite
    (.bind (.discard .advance) fun _ => .bind (.enterExpression _)
      fun _ => .pure _)
    (.pure none)

/-- **A class.** Its methods are a level deeper. -/
def classDefinition (mayBeUnnamed : Bool) :
    Plan K 0 fun g => classDefinition g mayBeUnnamed :=
  .bind (.expectKeyword _) fun opening =>
    .bind (.className mayBeUnnamed) fun _ =>
      .bind .classParent fun _ =>
        .bind (.discard (.expectPunctuator _)) fun _ =>
          .bind (.enter .methods) fun _ =>
            .bind (.discard (.expectPunctuator _)) fun _ =>
              .bind (.spanFrom opening.span.start) fun _ => .pure _

/-- A word before the name of a method, if it is one. -/
def modifier (word : String) : Action.Plan K 0 fun _ => modifier word :=
  .bind (.atWord word) fun _ => .bind .peek fun _ =>
    .ite (.bind (.discard .advance) fun _ => .pure true) (.pure false)

/-- The flavour of a method. -/
def methodKind : Action.Plan K 0 fun _ => methodKind :=
  .bind (.eat .star) fun _ => .ite (.pure _)
    (.bind (.modifier "get") fun _ => .ite (.pure _)
      (.bind (.modifier "set") fun _ => .ite (.pure _) (.pure _)))

def methodName : Plan K 0 fun _ => methodName :=
  .bind .current fun _ => .ite .propertyName (.unexpected _)

/-- **A method**, with parameters and a body as a function has them. -/
def method (isStatic : Bool) (start : Nat) :
    Plan K 0 fun g => method g isStatic start :=
  .bind (.modifier _) fun _ => .bind .methodKind fun _ =>
    .bind .methodName fun _ => .bind .parameterList fun _ =>
      .bind (.enter .block) fun _ => .bind (.spanFrom start) fun _ => .pure _

/-- The loop over the methods of a class. -/
def classMethodsFrom : (turns : Nat) → (found : List Method) →
    Plan K 0 fun g => classMethodsFrom g turns found
  | 0, found => .pure found.reverse
  | turns + 1, found =>
    .bind .current fun _ => .ite (.pure found.reverse)
      (.bind .here fun start => .bind (.modifier _) fun isStatic =>
        .bind (.method isStatic start) fun m =>
          .bind (.discard (.eat .semicolon)) fun _ =>
            .classMethodsFrom turns (m :: found))

def classMethods : Plan K 0 fun g => classMethods g :=
  .consult (fun _ _ _ => rfl) fun ctx => .classMethodsFrom ctx.turns []

/-! ## Operands -/

def regexLiteral : Plan K 0 fun _ => regexLiteral :=
  .bind .current fun token =>
    match regexParts token.text.toList with
    | (_, _) => .literal _

/-- **A slash where an operand is expected**: the token is read again. -/
def rescannedRegex : Plan K 0 fun _ => rescannedRegex :=
  .rescan .regexLiteral

/-- What follows the parameters of an arrow function: a block, or an
expression. -/
def arrowFunction (isAsync : Bool) (params : List Identifier)
    (start : Nat) : Plan K 0 fun g => arrowFunction g isAsync params start :=
  .bind (.discard (.expectPunctuator _)) fun _ =>
    .bind (.atPunctuator .lBrace) fun _ =>
      .ite
        (.bind (Plan.map _ (.enter .block)) fun _ => .bind (.spanFrom start)
          fun _ => .pure _)
        (.bind (Plan.assignment.map _) fun _ =>
          .bind (.spanFrom start) fun _ => .pure _)

/-- A function behind the word for those that run on the side. Which kind
it is, if any, is seen from here (`Parse.Plan.view`). -/
def asyncFunction? : Plan K 0 fun g => asyncFunction? g :=
  .view (fun _ _ => rfl) fun s => .ite
    (.bind (.discard .advance) fun _ => .bind
      (.functionExpression true s.current.span.start) fun _ =>
        .pure _)
    (.ite
      (.bind (.discard .advance) fun _ => .bind .identifier fun _ =>
        .bind (.arrowFunction true _ _) fun _ => .pure _)
      (.ite
        (.bind (.discard .advance) fun _ => .bind .parameterList fun _ =>
          .bind (.arrowFunction true _ _) fun _ => .pure _)
        (.pure none)))

/-- A name, or an arrow function with one parameter. -/
def nameOrArrow : Plan K 0 fun g => nameOrArrow g :=
  .bind .current fun _ => .bind .peek fun _ => .ite
    (.bind .identifier fun _ => .arrowFunction false _ _)
    (.bind .identifier fun _ => .pure _)

def nameOperand : Plan K 0 fun g => nameOperand g :=
  .bind (.atWord "async") fun _ => .ite
    (.bind .asyncFunction? fun
      | some e => .pure e
      | none => .nameOrArrow)
    .nameOrArrow

/-- **What begins with a parenthesis.** Whether it is a list of
parameters is seen from here. -/
def parenthesizedOrArrow : Plan K 0 fun g => parenthesizedOrArrow g :=
  .view (fun _ _ => rfl) fun s => .ite
    (.bind .parameterList fun params =>
      .arrowFunction false params s.current.span.start)
    (.bind .condition fun _ => .bind (.spanFrom _) fun _ =>
      .pure _)

def arrayElements : Plan K 0 fun g => arrayElements g :=
  .separated _ _ .assignment

/-- An array. -/
def arrayLiteral : Plan K 0 fun g => arrayLiteral g :=
  .bind (.expectPunctuator _) fun _ => .bind (.enter .elements) fun _ =>
    .bind (.discard (.expectPunctuator _)) fun _ =>
      .bind (.spanFrom _) fun _ => .pure _

/-- A key with its value. -/
def pairWith (key : PropertyKey) (start : Nat) :
    Plan K 0 fun g => pairWith g key start :=
  .bind (.discard (.expectPunctuator _)) fun _ =>
    .bind .assignment fun _ => .pure _

/-- **A member of an object**, by its first token, and the one behind it
if that may be a key. -/
def objectMember : Plan K 0 fun g => objectMember g :=
  .bind .current fun _ => by
    dsimp only
    split
    case h_1 | h_2 =>
      exact .bind (.literal _) fun _ => .pairWith _ _
    case h_3 => exact .bind (.method false _) fun _ => .pure _
    case h_4 | h_5 =>
      exact .bind .peek fun _ => .ite
        (.bind .propertyName fun _ => .pairWith _ _)
        (.bind (.method false _) fun _ => .pure _)
    case h_6 => exact .unexpected _

def objectMembers : Plan K 0 fun g => objectMembers g :=
  .separated _ _ .objectMember

/-- An object. -/
def objectLiteral : Plan K 0 fun g => objectLiteral g :=
  .bind (.expectPunctuator _) fun _ => .bind (.enter .members) fun _ =>
    .bind (.discard (.expectPunctuator _)) fun _ =>
      .bind (.spanFrom _) fun _ => .pure _

/-- The superclass's view of an object. -/
def superOperand : Plan K 0 fun _ => superOperand :=
  .bind .advance fun _ => .bind .current fun _ =>
    .ite (.pure _) (.unexpected _)

/-- **What a reserved word begins**, word by word. -/
def keywordOperand (k : Keyword) : Plan K 0 fun g => keywordOperand g k := by
  unfold Parse.keywordOperand
  split
  · exact .bind .advance fun _ => .pure _
  · exact .superOperand
  · exact .bind (.literal _) fun _ => .pure _
  · exact .bind (.literal _) fun _ => .pure _
  · exact .bind (.literal _) fun _ => .pure _
  · exact .bind (.literal _) fun _ => .pure _
  · exact .bind .here fun _ => .functionExpression false _
  · exact .bind (.classDefinition false) fun _ => .pure _
  · exact .unexpected _

/-- **An operand without operators**, by its first token. -/
def primary : Plan K 0 fun g => primary g :=
  .bind .current fun _ => by
    split
    · exact .nameOperand
    · exact .bind (.literal _) fun _ => .pure _
    · exact .bind (.literal _) fun _ => .pure _
    · exact .bind (.literal _) fun _ => .pure _
    · exact .bind .regexLiteral fun _ => .pure _
    · exact .bind .rescannedRegex fun _ => .pure _
    · exact .bind .rescannedRegex fun _ => .pure _
    · exact .parenthesizedOrArrow
    · exact .arrayLiteral
    · exact .objectLiteral
    · exact .keywordOperand _
    · exact .unexpected _

/-! ## Expressions -/

/-- An expression that is replaced by an error. -/
def refuse (error : ParseError) (e : Expression) :
    Action.Plan K 0 fun _ => refuse error e :=
  .bind (.reportError .recoverable error) fun _ =>
    .bind (.errorNode _) fun _ => .pure _

/-- The target of an assignment. -/
def assignmentTarget (e : Expression) :
    Action.Plan K 0 fun _ => assignmentTarget e :=
  .ite (.pure e) (.refuse _ e)

def deleteTarget (e : Expression) : Action.Plan K 0 fun _ => deleteTarget e :=
  .ite (.pure e) (.refuse _ e)

/-- **What a sign makes of the operand behind it.** The sign may be blamed,
so it must be known that nothing is wrong with it. -/
def applyBefore (token : Token) (argument : Expression)
    (clear : K → token.error = none) :
    Plan K 0 fun _ => applyBefore token argument := by
  unfold Parse.applyBefore
  dsimp only
  split
  case h_3 => exact .bind (.deleteTarget argument) fun _ => .pure _
  case h_12 => exact .blame _ token clear
  all_goals exact .pure _

/-- **An operand**, with the operators in front of it. The first of them may
be blamed later, so it is met here (`Parse.Plan.meet`). -/
def operand : Plan K 0 fun g => operand g :=
  .meet fun token => .consult (fun _ _ _ => rfl) fun ctx => by
    split
    · exact .ite
        (.bind (.discard .advance) fun _ =>
          .bind (.enterExpression _) fun e =>
            .applyBefore token e clear_of_met)
        .primary
    · exact .primary

/-- The arguments of a call. -/
def callArguments : Plan K 0 fun g => callArguments g :=
  .bind (.separated _ _ .assignment) fun arguments =>
    .bind (.discard (.expectPunctuator _)) fun _ => .pure arguments

/-- **What a sign makes of the operand before it**, if it is not to blame. -/
def applyAfter (left : Expression) (token : Token)
    (clear : K → token.error = none) :
    Plan K 0 fun g => applyAfter g left token := by
  unfold Parse.applyAfter
  dsimp only
  split
  · exact .pure _
  · exact .pure _
  · exact .bind (.enter .arguments) fun _ => .bind (.spanFrom _) fun _ =>
      .pure _
  · exact .bind .propertyName fun _ => .pure _
  · exact .bind (.enterBracketed _ _) fun _ =>
      .bind (.discard (.expectPunctuator _)) fun _ =>
        .bind (.spanFrom _) fun _ => .pure _
  · exact .blame _ token clear

/-- **What a mark makes of two operands**, if it is not to blame. -/
def applyMark (left : Expression) (token : Token) (p : Punctuator)
    (right : Precedence) (clear : K → token.error = none) :
    Plan K 0 fun g => applyMark g left token p right := by
  unfold Parse.applyMark
  dsimp only
  split
  · exact .bind (.enterExpression right) fun _ => .pure _
  · exact .bind (.assignmentTarget left) fun _ =>
      .bind (.enterExpression right) fun _ => .pure _
  · exact .bind (.enter .consequent) fun _ =>
      .bind (.discard (.expectPunctuator _)) fun _ =>
        .bind (.enterExpression right) fun _ => .pure _
  · split
    · exact .bind (.assignmentTarget left) fun _ =>
        .bind (.enterExpression right) fun _ => .pure _
    · split
      · exact .bind (.enterExpression right) fun _ => .pure _
      · exact .blame _ token clear

/-- **An operator is folded.** It may be blamed for it when it has been
read (`Parse.Plan.take`). -/
def applyOperator (left : Expression) (info : OperatorInfo) :
    Plan K 0 fun g => applyOperator g left info :=
  .take fun token => .ite (.applyAfter left token clear_of_met) (by
    split
    · exact .applyMark left token _ _ clear_of_met
    · exact .bind (.enterExpression _) fun _ => .pure _
    · exact .bind (.enterExpression _) fun _ => .pure _)

/-- The operator that comes next, if it may be folded. -/
def operatorAt? (min : Precedence) :
    Action.Plan K 0 fun _ => operatorAt? min :=
  .look _ (fun ctx s => by rw [operatorAt?_run])
    fun ctx options s => by
      rw [operatorAt?_run, operatorAt?_run]
      rfl

/-- The loop over operators. -/
def foldOperators (min : Precedence) : (turns : Nat) →
    (left : Expression) → Plan K 0 fun g => foldOperators g min turns left
  | 0, left => .pure left
  | turns + 1, left =>
    .bind (.operatorAt? min) fun
      | some info => .bind (.applyOperator left info) fun e =>
          .foldOperators min turns e
      | none => .pure left

/-- **An expression**, an operand and what is folded onto it. -/
def expressionFrom (min : Precedence) :
    Plan K 0 fun g => expressionFrom g min :=
  .bind .operand fun left => .consult (fun _ _ _ => rfl) fun ctx =>
    .foldOperators min ctx.turns left

/-! ## Terminators and declarations -/

/-- A missing terminator is reported. -/
def reportMissingTerminator (atEnd : Bool) :
    Action.Plan K 0 fun _ => reportMissingTerminator atEnd :=
  .bind .current fun _ => .ite (.pure ()) (.report _ _ _ _)

/-- **The end of a statement.** Only at the end of a list that allows for
it the options are looked at. -/
def terminator (mayTrail : Bool) :
    Action.Plan K 0 fun _ => terminator mayTrail :=
  .bind (.eat .semicolon) fun _ => .ite (.pure ())
    (.bind .newlineBefore fun _ => .ite (.pure ())
      (.bind .atListEnd fun
        | true => match mayTrail with
          | true => .trailing
          | false => .reportMissingTerminator true
        | false => by
          cases mayTrail <;> exact .reportMissingTerminator false))

/-- The end of a function or class. -/
def declarationEnd : Action.Plan K 0 fun _ => declarationEnd :=
  .bind .newlineBefore fun _ => .ite (.pure ()) (.discard (.eat .semicolon))

def atStatementEnd : Action.Plan K 0 fun _ => atStatementEnd :=
  .look _ (fun _ _ => rfl) fun _ _ _ => rfl

/-- The first value of a variable. -/
def initializer? : Plan K 0 fun g => initializer? g :=
  .bind (.eat .assign) fun _ => .ite
    (.bind .assignment fun _ => .pure _) (.pure none)

/-- One binding. -/
def binding : Plan K 0 fun g => binding g :=
  .bind .identifier fun id => .bind .initializer? fun _ =>
    .bind (.spanFrom id.span.start) fun _ => .pure _

/-- Whether another binding follows. -/
def anotherBinding (mended : Bool) :
    Action.Plan K 0 fun _ => anotherBinding mended :=
  .bind (.eat .comma) fun _ => .ite (.pure true)
    (.look _ (fun _ _ => rfl) fun _ _ _ => rfl)

/-- **The loop over bindings**, each of them a tolerant point. -/
def bindingsFrom : (turns : Nat) → (found : List Declarator) →
    Plan K 0 fun g => bindingsFrom g turns found
  | 0, found => .pure found.reverse
  | turns + 1, found =>
    .bind (.tolerant .varBinding .binding) fun d =>
      .bind (.anotherBinding _) fun _ => .ite
        (.bindingsFrom turns (d :: found)) (.pure _)

/-- A declaration without its terminator. -/
def variableDeclaration : Plan K 0 fun g => variableDeclaration g :=
  .bind .advance fun token => .consult (fun _ _ _ => rfl) fun ctx =>
    .bind (.bindingsFrom ctx.turns []) fun _ =>
      .bind (.spanFrom token.span.start) fun _ => .pure _

/-- A declaration as a statement. -/
def declarationStatement : Plan K 0 fun g => declarationStatement g :=
  .bind .here fun start => .bind .variableDeclaration fun _ =>
    .bind (.terminator false) fun _ => .bind (.spanFrom start) fun _ =>
      .pure _

/-- The end of an expression statement. -/
def expressionEnd (e : Expression) : Action.Plan K 0 fun _ => expressionEnd e :=
  .ite (.discard (.eat .semicolon)) (.ite .declarationEnd (.terminator true))

/-- **An expression as a statement**, which is a tolerant point. -/
def expressionStatement : Plan K 0 fun g => expressionStatement g :=
  .bind .here fun start =>
    .bind (.tolerant .expressionStatement .expression) fun e =>
      .bind (.expressionEnd e) fun _ => .bind (.spanFrom start) fun _ =>
        .pure _

/-! ## Conditions and loops -/

/-- The other branch of a condition. -/
def alternative? : Plan K 0 fun g => alternative? g :=
  .bind (.atKeyword _) fun _ => .ite
    (.bind (.discard .advance) fun _ => .bind .statement fun _ => .pure _)
    (.pure none)

/-- A condition with its branches. -/
def conditionalStatement : Plan K 0 fun g => conditionalStatement g :=
  .bind .advance fun _ => .bind .condition fun _ =>
    .bind .statement fun _ => .bind .alternative? fun _ =>
      .bind (.spanFrom _) fun _ => .pure _

/-- What a clause of a switch is for. -/
def caseTest : Plan K 0 fun g => caseTest g :=
  .bind (.atKeyword _) fun _ => .ite
    (.bind (.discard .advance) fun _ => .bind .expression fun _ => .pure _)
    (.bind (.atKeyword _) fun _ => .ite
      (.bind (.discard .advance) fun _ => .pure none) (.unexpected _))

/-- **A clause of a switch**, with a list of statements of its own. -/
def switchCase : Plan K 0 fun g => switchCase g :=
  .bind .here fun start => .bind .caseTest fun _ =>
    .bind (.discard (.expectPunctuator _)) fun _ =>
      .bind (.statementList .switchCase) fun _ =>
        .bind (.spanFrom start) fun _ => .pure _

/-- The loop over the clauses of a switch. -/
def switchCasesFrom : (turns : Nat) → (found : List SwitchCase) →
    Plan K 0 fun g => switchCasesFrom g turns found
  | 0, found => .pure found.reverse
  | turns + 1, found =>
    .bind (.atPunctuator .rBrace) fun _ => .ite (.pure found.reverse)
      (.bind .switchCase fun c =>
        .switchCasesFrom turns (c :: found))

/-- A choice between clauses. -/
def switchStatement : Plan K 0 fun g => switchStatement g :=
  .bind .advance fun _ => .bind .condition fun _ =>
    .bind (.discard (.expectPunctuator _)) fun _ =>
      .consult (fun _ _ _ => rfl) fun ctx =>
        .bind (.switchCasesFrom ctx.turns []) fun _ =>
          .bind (.discard (.expectPunctuator _)) fun _ =>
            .bind (.spanFrom _) fun _ => .pure _

/-- A loop with its condition in front. -/
def whileStatement : Plan K 0 fun g => whileStatement g :=
  .bind .advance fun _ => .bind .condition fun _ =>
    .bind .statement fun _ => .bind (.spanFrom _) fun _ =>
      .pure _

/-- A loop with its condition behind. -/
def doStatement : Plan K 0 fun g => doStatement g :=
  .bind .advance fun _ => .bind (.enter .block) fun _ =>
    .bind (.discard (.expectKeyword _)) fun _ =>
      .bind .condition fun _ => .bind (.terminator false) fun _ =>
        .bind (.spanFrom _) fun _ => .pure _

/-- **One part of a header**, which is a tolerant point. -/
def headerPart (closer : Punctuator) : Plan K 0 fun g => headerPart g closer :=
  .tolerant .forHeader (.expressionBefore closer)

def optionalHeaderPart (closer : Punctuator) :
    Plan K 0 fun g => optionalHeaderPart g closer :=
  .bind (.atPunctuator closer) fun _ => .ite (.pure none)
    (.bind (.headerPart closer) fun _ => .pure _)

/-- **The first part of a header**, where `in` is no operator. -/
def headerInit : Plan K 0 fun g => headerInit g :=
  .bind .current fun _ => .ite (.pure none) (.ite
    (.bind (.withoutIn .variableDeclaration) fun _ => .pure _)
    (.bind (.withoutIn (.tolerant .forHeader .expression))
      fun _ => .pure _))

/-- What is behind the first part of a header, in a loop over a range. -/
def eachHeader (init? : Option ForInit) :
    Plan K 0 fun g => eachHeader g init? := by
  unfold Parse.eachHeader
  split
  · exact .unexpected _
  · exact .bind (.discard .advance) fun _ =>
      .bind (.headerPart .rParen) fun _ =>
      .pure _

/-- **The header of a loop**, which has one of two forms. -/
def forHeader : Plan K 0 fun g => forHeader g :=
  .bind .headerInit fun init? =>
    .bind (.atKeyword _) fun _ => .ite
      (.bind (.eachHeader init?) fun (_, _) => .pure _)
      (.bind (.atWord _) fun _ => .ite
        (.bind (.eachHeader init?) fun (_, _) => .pure _)
        (.bind (.discard (.expectPunctuator _)) fun _ =>
          .bind (.optionalHeaderPart _) fun _ =>
            .bind (.discard (.expectPunctuator _)) fun _ =>
              .bind (.optionalHeaderPart _) fun _ => .pure _))

/-- A `for` loop, with its header a level deeper. -/
def forStatement : Plan K 0 fun g => forStatement g :=
  .bind .advance fun _ => .bind (.discard (.expectPunctuator _)) fun _ =>
    .bind (.enter .forHeader) fun _ =>
      .bind (.discard (.expectPunctuator _)) fun _ =>
        .bind .statement fun _ => .bind (.spanFrom _) fun _ =>
          .pure _

/-! ## Imports and exports -/

section Names

variable {item : Grammar → Parse α} (plan : Plan K 0 item)

/-- The loop over the names of a list. -/
def specifiersFrom : (turns : Nat) → (found : List α) →
    Plan K 0 fun g => specifiersFrom (item g) turns found
  | 0, found => .pure found.reverse
  | turns + 1, found =>
    .bind (.atPunctuator .rBrace) fun _ => .ite (.pure found.reverse)
      (.bind plan fun x => .bind (.eat .comma) fun _ => .ite
        (.specifiersFrom turns (x :: found)) (.pure _))

/-- Names with commas between them. -/
def specifiers : Plan K 0 fun g => specifiers (item g) :=
  .consult (fun _ _ _ => rfl) fun ctx => .specifiersFrom plan ctx.turns []

end Names

/-- A second name, if one is given. -/
def alias? {name : Grammar → Parse Identifier} (plan : Plan K 0 name) :
    Plan K 0 fun g => alias? (name g) :=
  .bind (.atWord "as") fun _ => .ite
    (.bind (.discard .advance) fun _ => .bind plan fun _ => .pure _)
    (.pure none)

/-- One name of an import list. -/
def importSpecifier : Plan K 0 fun _ => importSpecifier :=
  .bind .propertyName fun _ => .bind (.alias? .identifier) fun _ =>
    .bind (.spanFrom _) fun _ => .pure _

/-- One name of an export list. -/
def exportSpecifier : Plan K 0 fun _ => exportSpecifier :=
  .bind .identifier fun _ => .bind (.alias? .propertyName) fun _ =>
    .bind (.spanFrom _) fun _ => .pure _

/-- The names of an import list, with its braces. -/
def importList : Plan K 0 fun g => importList g :=
  .bind (.discard (.expectPunctuator _)) fun _ =>
    .bind (.enter .importSpecifiers) fun names =>
      .bind (.discard (.expectPunctuator _)) fun _ => .pure names

/-- The names of an export list, with its braces. -/
def exportList : Plan K 0 fun g => exportList g :=
  .bind (.discard (.expectPunctuator _)) fun _ =>
    .bind (.enter .exportSpecifiers) fun names =>
      .bind (.discard (.expectPunctuator _)) fun _ => .pure names

/-- The module names come from. -/
def fromClause : Plan K 0 fun _ => fromClause :=
  .bind (.discard (.expectWord _)) fun _ => .moduleName

def importDefault : Plan K 0 fun _ => importDefault :=
  .bind (.atKind .identifier) fun _ =>
    .ite (.bind .identifier fun _ => .pure _) (.pure none)

def moreImports (default? : Option Identifier) :
    Action.Plan K 0 fun _ => moreImports default? :=
  .ite (.pure true) (.eat .comma)

/-- The names behind the one for a module's default. -/
def importRest (default? : Option Identifier) (start : Nat) :
    Plan K 0 fun g => importRest g default? start :=
  .bind (.eat .star) fun _ => .ite
    (.bind (.discard (.expectWord _)) fun _ =>
      .bind .identifier fun _ => .bind (.spanFrom start) fun _ => .pure _)
    (.bind (.atPunctuator .lBrace) fun _ => .ite
      (.bind .importList fun _ => .bind (.spanFrom start) fun _ =>
        .pure _)
      (.unexpected _))

/-- The names an import binds. -/
def importClause : Plan K 0 fun g => importClause g :=
  .bind .here fun start => .bind .importDefault fun default? =>
    .bind (.moreImports default?) fun _ => .ite
      (.importRest default? start)
      (.bind (.spanFrom start) fun _ => .pure _)

def importClause? : Plan K 0 fun g => importClause? g :=
  .bind (.atKind .string) fun _ => .ite (.pure none)
    (.bind .importClause fun _ =>
      .bind (.discard (.expectWord _)) fun _ => .pure _)

/-- **An import.** -/
def importStatement : Plan K 0 fun g => importStatement g :=
  .bind .advance fun _ => .bind .importClause? fun _ =>
    .bind .moduleName fun _ => .bind (.terminator false) fun _ =>
      .bind (.spanFrom _) fun _ => .pure _

def exportAll : Plan K 0 fun _ => exportAll :=
  .bind (.discard .advance) fun _ => .bind .fromClause fun _ =>
    .bind (.terminator false) fun _ => .pure _

/-- A list of names, perhaps of another module. -/
def exportNamed : Plan K 0 fun g => exportNamed g :=
  .bind .exportList fun names =>
    .bind (.atWord "from") fun _ =>
      have rest (source? : Option Literal) :=
        .bind (.terminator false) fun _ =>
          .pure (Export.named names source?)
      .ite (.bind (Plan.fromClause.map some) rest)
        (.bind (.pure none) rest)

/-- The default of a module. -/
def exportDefault : Plan K 0 fun g => exportDefault g :=
  .bind (.discard .advance) fun _ => .bind (.atKeyword .kwClass) fun _ => .ite
    (.bind (.classDefinition true) fun _ =>
      .bind .declarationEnd fun _ => .pure _)
    (.bind .assignment fun e => .ite
      (.bind .declarationEnd fun _ => .pure (Export.default e))
      (.bind (.terminator false) fun _ => .pure (Export.default e)))

def exportVariables : Plan K 0 fun g => exportVariables g :=
  .bind .variableDeclaration fun _ =>
    .bind (.terminator false) fun _ => .pure _

def exportAsync : Plan K 0 fun g => exportAsync g :=
  .bind (.atWord "async") fun _ => .bind .peek fun _ => .ite
    (.bind .advance fun _ =>
      .bind (.functionExpression true _) fun _ => .pure _)
    (.unexpected _)

/-- **What an export names**, by its first token. -/
def exported : Plan K 0 fun g => exported g :=
  .bind .current fun _ => by
    split
    · exact .exportAll
    · exact .exportNamed
    · exact .exportDefault
    · exact .exportVariables
    · exact .exportVariables
    · exact .exportVariables
    · exact .bind .here fun _ =>
        .bind (.functionExpression false _) fun _ => .pure _
    · exact .bind (.classDefinition true) fun _ => .pure _
    · exact .exportAsync

/-- **An export.** -/
def exportStatement : Plan K 0 fun g => exportStatement g :=
  .bind .advance fun _ => .bind .exported fun _ =>
    .bind (.spanFrom _) fun _ => .pure _

/-! ## Statements -/

/-- **Statements in braces.** -/
def blockFrom : Plan K 0 fun g => blockFrom g :=
  .bind (.expectPunctuator _) fun _ =>
    .bind (.statementList .brace) fun _ =>
      .bind (.discard (.expectPunctuator _)) fun _ =>
        .bind (.spanFrom _) fun _ => .pure _

/-- The name for an exception, in parentheses, a level deeper. -/
def catchParameter? : Plan K 0 fun g => catchParameter? g :=
  .bind (.eat .lParen) fun _ => .ite
    (.bind (.enter .catchParameter) fun _ =>
      .bind (.discard (.expectPunctuator _)) fun _ => .pure _)
    (.pure none)

/-- What is done about an exception. -/
def catchClause? : Plan K 0 fun g => catchClause? g :=
  .bind (.atKeyword _) fun _ => .ite
    (.bind .advance fun _ => .bind .catchParameter? fun _ =>
      .bind (.enter .block) fun _ => .bind (.spanFrom _) fun _ => .pure _)
    (.pure none)

/-- What is done in any case. -/
def finallyBlock? : Plan K 0 fun g => finallyBlock? g :=
  .bind (.atKeyword _) fun _ => .ite
    (.bind (.discard .advance) fun _ => .bind (.enter .block) fun _ => .pure _)
    (.pure none)

/-- A block with what is done about exceptions. -/
def tryStatement : Plan K 0 fun g => tryStatement g :=
  .bind .advance fun _ => .bind (.enter .block) fun _ =>
    .bind .catchClause? fun _ =>
      .bind .finallyBlock? fun _ => .bind (.spanFrom _) fun _ =>
        .pure _

/-- The way out of a loop, or to its next turn. -/
def jumpStatement (make : Span → Statement) :
    Plan K 0 fun _ => jumpStatement make :=
  .bind .advance fun _ => .bind (.terminator true) fun _ =>
    .bind (.spanFrom _) fun _ => .pure _

/-- The value behind a word. -/
def optionalValue : Plan K 0 fun g => optionalValue g :=
  .bind .atStatementEnd fun _ => .ite (.pure none)
    (.bind .expression fun _ => .pure _)

/-- A value handed out. -/
def valueStatement (make : Option Expression → Span → Statement) :
    Plan K 0 fun g => valueStatement g make :=
  .bind .advance fun _ => .bind .optionalValue fun _ =>
    .bind (.terminator true) fun _ => .bind (.spanFrom _) fun _ =>
      .pure _

def throwStatement : Plan K 0 fun g => throwStatement g :=
  .bind .advance fun _ => .bind .expression fun _ =>
    .bind (.terminator true) fun _ => .bind (.spanFrom _) fun _ =>
      .pure _

/-- **What a reserved word begins**, where a statement is expected. -/
def keywordStatement (k : Keyword) :
    Plan K 0 fun g => keywordStatement g k := by
  unfold Parse.keywordStatement
  split
  · exact .exportStatement
  · exact .importStatement
  · exact .declarationStatement
  · exact .declarationStatement
  · exact .declarationStatement
  · exact .conditionalStatement
  · exact .switchStatement
  · exact .forStatement
  · exact .whileStatement
  · exact .doStatement
  · exact .tryStatement
  · exact .jumpStatement _
  · exact .jumpStatement _
  · exact .valueStatement _
  · exact .valueStatement _
  · exact .throwStatement
  · exact .expressionStatement

/-- **A statement**, by its first token. -/
def statementFrom : Plan K 0 fun g => statementFrom g :=
  .bind .current fun _ => by
    split
    · exact .keywordStatement _
    · exact .bind (.enter .block) fun _ => .pure _
    · exact .bind .advance fun _ => .pure _
    · exact .expressionStatement

/-- A script without a token is reported. -/
def reportEmpty : Action.Plan K 0 fun _ => reportEmpty :=
  .consult (fun _ _ _ => rfl) fun _ => .report _ _ _ _

/-- **A whole script**, a list of statements that the end of the text
closes. -/
def script : Action.Plan K 0 fun g => script g :=
  .bind .current fun _ => .bind (.statementList .eof) fun body =>
    .ite (.bind .reportEmpty fun _ => .pure body) (.pure body)

end Plan

end Parse

/-! ## What is read one level deeper -/

/-- **What a grammar is asked for has a plan**, once the level has been
entered. -/
def Grammar.Entry.plan : (entry : Entry α) → Parse.Plan K 0 entry.body
  | statement => .statementFrom
  | block => .blockFrom
  | expression min => .expressionFrom min
  | bracketed point closer =>
    .inBrackets (.tolerant point (.expressionBefore closer))
  | consequent => .inBrackets .assignment
  | arguments => .inBrackets .callArguments
  | elements => .inBrackets .arrayElements
  | members => .inBrackets .objectMembers
  | methods => .inBrackets .classMethods
  | parameters => .inBrackets .parameterNames
  | forHeader => .inBrackets .forHeader
  | catchParameter => .inBrackets .identifier
  | importSpecifiers => .inBrackets (.specifiers .importSpecifier)
  | exportSpecifiers => .inBrackets (.specifiers .exportSpecifier)

end ScriptTree
