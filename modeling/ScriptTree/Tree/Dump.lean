import ScriptTree.Text.Quoted
import ScriptTree.Tree.Basic
import ScriptTree.Tree.Sexp

/-!
# Trees as terms

The term of a tree shows its shape and what was written, but not where it
stood: spans and comments are left out. Names, numbers, strings and
templates appear as the script has them; operators, regular expressions
and text that could not be read appear in quotes.

Parts that a node may lack are left out where their absence shows by
itself. The header of a counting loop has three such parts side by side,
and an underscore stands for each that is missing.
-/

namespace ScriptTree

/-! ## Leaves -/

/-- A name as a term of its own. -/
def Identifier.term (id : Identifier) : Sexp :=
  .node "identifier" [.atom id.name]

/-- A name as an atom. -/
def Identifier.atom (id : Identifier) : Sexp := .atom id.name

/-- Text that could not be read. -/
def ErrorNode.term (e : ErrorNode) : Sexp :=
  .node "error" [.atom (quote e.text)]

/-- A literal. -/
def Literal.term (l : Literal) : Sexp :=
  match l.kind with
  | .number => .node "number" [.atom l.raw]
  | .string => .node "string" [.atom l.raw]
  | .template => .node "template" [.atom l.raw]
  | .regex pattern flags =>
    .node "regex" [.atom (quote pattern), .atom (quote flags)]
  | .boolean true => .node "boolean" [.atom "true"]
  | .boolean false => .node "boolean" [.atom "false"]
  | .null => .node "null" []
  | .undefined => .node "undefined" []

/-- The key of a pair. -/
def PropertyKey.term : PropertyKey → Sexp
  | identifier id => id.term
  | string l | number l => l.term

/-- The names of parameters. -/
def paramsTerm (params : List Identifier) : Sexp :=
  .node "params" (params.map Identifier.atom)

/-- An atom where a mark is set, and nothing where it is not. -/
def flagTerm (isSet : Bool) (name : String) : List Sexp :=
  if isSet then [.atom name] else []

/-- The word for a method's flavour, the ordinary one having none. -/
def MethodKind.terms : MethodKind → List Sexp
  | method => []
  | get => [.atom "get"]
  | set => [.atom "set"]
  | generator => [.atom "*"]

/-- One name of an import list. -/
def ImportSpecifier.term (s : ImportSpecifier) : Sexp :=
  .node "specifier" (s.imported.atom :: s.alias?.toList.map Identifier.atom)

/-- One name of an export list. -/
def ExportSpecifier.term (s : ExportSpecifier) : Sexp :=
  .node "specifier" (s.localName.atom :: s.alias?.toList.map Identifier.atom)

/-- The names an import binds. -/
def ImportClause.terms (c : ImportClause) : List Sexp :=
  c.default?.toList.map Identifier.term
    ++ c.whole?.toList.map (fun id => .node "namespace" [id.atom])
    ++ c.named?.toList.map
      (fun specifiers => .node "named" (specifiers.map ImportSpecifier.term))

/-! ## Expressions and statements -/

mutual

/-- The term of an expression. -/
def Expression.term : Expression → Sexp
  | .identifier id => id.term
  | .literal l => l.term
  | .receiver _ => .node "this" []
  | .super _ => .node "super" []
  | .object members _ => .node "object" (memberTerms members)
  | .array elements _ => .node "array" (expressionTerms elements)
  | .function f => .node "function" f.terms
  | .generator f => .node "generator" f.terms
  | .arrow isAsync params body _ =>
    .node "arrow" (flagTerm isAsync "async" ++ [paramsTerm params, body.term])
  | .classDef c => c.term
  | .call callee arguments _ =>
    .node "call" (callee.term :: expressionTerms arguments)
  | .newObject callee _ => .node "new" [callee.term]
  | .await argument _ => .node "await" [argument.term]
  | .member owner property _ => .node "member" [owner.term, property.atom]
  | .subscript owner index _ => .node "subscript" [owner.term, index.term]
  | .assignment target value _ => .node "assign" [target.term, value.term]
  | .compoundAssignment operator target value _ =>
    .node "assign"
      [.atom (quote operator.spelling), target.term, value.term]
  | .conditional test consequent alternate _ =>
    .node "conditional" [test.term, consequent.term, alternate.term]
  | .binary operator left right _ =>
    .node "binary" [.atom (quote operator.spelling), left.term, right.term]
  | .unary operator argument _ =>
    .node "unary" [.atom (quote operator.spelling), argument.term]
  | .update operator leads argument _ =>
    .node "update"
      [.atom (quote operator.spelling),
        .atom (if leads then "prefix" else "postfix"), argument.term]
  | .sequence left right _ => .node "sequence" [left.term, right.term]
  | .parenthesized e _ => .node "paren" [e.term]
  | .error e => e.term

/-- The terms of expressions side by side. -/
def expressionTerms : List Expression → List Sexp
  | [] => []
  | e :: es => e.term :: expressionTerms es

/-- The term of an expression that may be missing, if it is there. -/
def optionalTerms : Option Expression → List Sexp
  | none => []
  | some e => [e.term]

/-- The term of an expression that may be missing, or an underscore. -/
def optionalTerm : Option Expression → Sexp
  | none => .atom "_"
  | some e => e.term

/-- The term of a member of an object. -/
def ObjectMember.term : ObjectMember → Sexp
  | .pair key value _ => .node "pair" [key.term, value.term]
  | .method m => m.term
  | .error e => e.term

/-- The terms of members side by side. -/
def memberTerms : List ObjectMember → List Sexp
  | [] => []
  | m :: ms => m.term :: memberTerms ms

/-- The term of the body of an arrow function. -/
def ArrowBody.term : ArrowBody → Sexp
  | .expression e => e.term
  | .block b => b.term

/-- What a function shows, under the name of its kind. -/
def Function.terms : Function → List Sexp
  | ⟨id?, params, body, isAsync, _⟩ =>
    flagTerm isAsync "async" ++ id?.toList.map Identifier.atom
      ++ [paramsTerm params, body.term]

/-- The term of a class. -/
def Class.term : Class → Sexp
  | ⟨id?, parent?, methods, _⟩ =>
    .node "class"
      (id?.toList.map Identifier.atom ++ parentTerms parent?
        ++ methodTerms methods)

/-- What a class extends. -/
def parentTerms : Option Expression → List Sexp
  | none => []
  | some e => [.node "extends" [e.term]]

/-- The term of a method. -/
def Method.term : Method → Sexp
  | ⟨isStatic, isAsync, kind, key, params, body, _⟩ =>
    .node "method"
      (flagTerm isStatic "static" ++ flagTerm isAsync "async" ++ kind.terms
        ++ [key.atom, paramsTerm params, body.term])

/-- The terms of methods side by side. -/
def methodTerms : List Method → List Sexp
  | [] => []
  | m :: ms => m.term :: methodTerms ms

/-- The term of a block. -/
def Block.term : Block → Sexp
  | ⟨body, _⟩ => .node "block" (statementTerms body)

/-- The term of a declaration. -/
def VariableDeclaration.term : VariableDeclaration → Sexp
  | ⟨kind, declarators, _⟩ =>
    .node "var_declaration"
      (.atom kind.spelling :: declaratorTerms declarators)

/-- The term of a binding. -/
def Declarator.term : Declarator → Sexp
  | .binding id init? _ => .node "binding" (id.term :: optionalTerms init?)
  | .error e => e.term

/-- The terms of bindings side by side. -/
def declaratorTerms : List Declarator → List Sexp
  | [] => []
  | d :: ds => d.term :: declaratorTerms ds

/-- The term of a clause of a switch. -/
def SwitchCase.term : SwitchCase → Sexp
  | ⟨none, consequent, _⟩ => .node "default" (statementTerms consequent)
  | ⟨some test, consequent, _⟩ =>
    .node "case" (test.term :: statementTerms consequent)

/-- The terms of clauses side by side. -/
def caseTerms : List SwitchCase → List Sexp
  | [] => []
  | c :: cs => c.term :: caseTerms cs

/-- The term of what a counting loop does first. -/
def ForInit.term : ForInit → Sexp
  | .declaration d => d.term
  | .expression e => e.term

/-- The same where it may be missing, or an underscore. -/
def initTerm : Option ForInit → Sexp
  | none => .atom "_"
  | some i => i.term

/-- The term of what is done about an exception. -/
def CatchClause.term : CatchClause → Sexp
  | ⟨param?, body, _⟩ =>
    .node "catch" (param?.toList.map Identifier.term ++ [body.term])

/-- The same where it may be missing. -/
def catchTerms : Option CatchClause → List Sexp
  | none => []
  | some c => [c.term]

/-- The term of a block that is run in any case, if there is one. -/
def finallyTerms : Option Block → List Sexp
  | none => []
  | some b => [.node "finally" [b.term]]

/-- What an export shows. -/
def Export.terms : Export → List Sexp
  | .all source => [.atom "*", source.term]
  | .named specifiers source? =>
    .node "named" (specifiers.map ExportSpecifier.term)
      :: source?.toList.map Literal.term
  | .declaration e => [e.term]
  | .bindings d => [d.term]
  | .default e => [.atom "default", e.term]

/-- The term of a statement. -/
def Statement.term : Statement → Sexp
  | .expression e _ => .node "expression_statement" [e.term]
  | .declaration d => d.term
  | .conditional test consequent alternate? _ =>
    .node "if" (test.term :: consequent.term :: alternateTerms alternate?)
  | .switch discriminant cases _ =>
    .node "switch" (discriminant.term :: caseTerms cases)
  | .forLoop init? test? update? body _ =>
    .node "for"
      [initTerm init?, optionalTerm test?, optionalTerm update?, body.term]
  | .forIn kind? left right body _ =>
    .node "for_in"
      (kind?.toList.map (fun k => .atom k.spelling)
        ++ [left.term, right.term, body.term])
  | .forOf kind? left right body _ =>
    .node "for_of"
      (kind?.toList.map (fun k => .atom k.spelling)
        ++ [left.term, right.term, body.term])
  | .whileLoop test body _ => .node "while" [test.term, body.term]
  | .doWhile body test _ => .node "do" [body.term, test.term]
  | .tryBlock body handler? finalizer? _ =>
    .node "try"
      (body.term :: (catchTerms handler? ++ finallyTerms finalizer?))
  | .breakLoop _ => .node "break" []
  | .continueLoop _ => .node "continue" []
  | .returnValue argument? _ => .node "return" (optionalTerms argument?)
  | .yieldValue argument? _ => .node "yield" (optionalTerms argument?)
  | .throwValue argument _ => .node "throw" [argument.term]
  | .empty _ => .node "empty" []
  | .block b => b.term
  | .importNames clause? source _ =>
    .node "import"
      ((clause?.map ImportClause.terms).getD [] ++ [source.term])
  | .exportNames e _ => .node "export" e.terms
  | .error e => e.term

/-- The other branch of a condition, if there is one. -/
def alternateTerms : Option Statement → List Sexp
  | none => []
  | some s => [s.term]

/-- The terms of statements side by side. -/
def statementTerms : List Statement → List Sexp
  | [] => []
  | s :: ss => s.term :: statementTerms ss

end

/-- **The term of a script.** -/
def Program.term (p : Program) : Sexp :=
  .node "program" (statementTerms p.body)

/-- **A script on one line.** -/
def Program.dump (p : Program) : String := p.term.render

/-- **An expression on one line.** -/
def Expression.dump (e : Expression) : String := e.term.render

end ScriptTree
