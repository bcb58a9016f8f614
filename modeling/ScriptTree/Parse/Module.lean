import ScriptTree.Parse.Declaration

/-!
# Imports and exports
-/

namespace ScriptTree.Parse

open ScriptTree.Action

variable (g : Grammar)

/-! ## Lists of names -/

/-- The loop of `specifiers`, with the names so far, the last of them
first. -/
def specifiersFrom {α : Type} (item : Parse α) :
    (turns : Nat) → List α → Parse (List α)
  | 0, found => return found.reverse
  | turns + 1, found => do
    if ← atPunctuator .rBrace then return found.reverse
    else
      let x ← item
      if ← eat .comma then specifiersFrom item turns (x :: found)
      else return (x :: found).reverse

/-- Names with commas between them, up to a closing brace. -/
def specifiers {α : Type} (item : Parse α) : Parse (List α) := do
  specifiersFrom item (← read).turns []

/-- A second name for what was named before, if one is given. -/
def alias? (name : Parse Identifier) : Parse (Option Identifier) := do
  if ← atWord "as" then
    discard advance
    return some (← name)
  else return none

/-- **One name of an import list.** What it is called in the other module
may be a reserved word; what it is called here may not. -/
def importSpecifier : Parse ImportSpecifier := do
  let imported ← propertyName
  let alias? ← alias? identifier
  return ⟨imported, alias?, ← spanFrom imported.span.start⟩

/-- **One name of an export list.** Here it is the other way round. -/
def exportSpecifier : Parse ExportSpecifier := do
  let localName ← identifier
  let alias? ← alias? propertyName
  return ⟨localName, alias?, ← spanFrom localName.span.start⟩

/-- The names of an import list, with its braces. -/
def importList : Parse (List ImportSpecifier) := do
  discard (expectPunctuator .lBrace)
  let names ← g.importSpecifiers
  discard (expectPunctuator .rBrace)
  return names

/-- The names of an export list, with its braces. -/
def exportList : Parse (List ExportSpecifier) := do
  discard (expectPunctuator .lBrace)
  let names ← g.exportSpecifiers
  discard (expectPunctuator .rBrace)
  return names

/-- The module names come from. -/
def fromClause : Parse Literal := do
  discard (expectWord "from")
  moduleName

/-! ## Imports -/

/-- The name for a module's default. -/
def importDefault : Parse (Option Identifier) := do
  if ← atKind .identifier then return some (← identifier)
  else return none

/-- Whether more names follow the one for a module's default, if there is
one. -/
def moreImports (default? : Option Identifier) : Action Bool := do
  if default?.isNone then return true
  else eat .comma

/-- The names besides the one for a module's default: one for the module
as a whole, or a list. -/
def importRest (default? : Option Identifier) (start : Nat) :
    Parse ImportClause := do
  if ← eat .star then
    discard (expectWord "as")
    let name ← identifier
    return ⟨default?, some name, none, ← spanFrom start⟩
  else if ← atPunctuator .lBrace then
    let names ← importList g
    return ⟨default?, none, some names, ← spanFrom start⟩
  else
    unexpected "'*' or '\x7b'"

/-- **The names an import binds.** -/
def importClause : Parse ImportClause := do
  let start ← here
  let default? ← importDefault
  if ← moreImports default? then importRest g default? start
  else return ⟨default?, none, none, ← spanFrom start⟩

/-- The names and the word behind them; an import for its effect has
neither. -/
def importClause? : Parse (Option ImportClause) := do
  if ← atKind .string then return none
  else
    let clause ← importClause g
    discard (expectWord "from")
    return some clause

/-- **An import.** -/
def importStatement : Parse Statement := do
  let start := (← advance).span.start
  let clause? ← importClause? g
  let source ← moduleName
  terminator false
  return .importNames clause? source (← spanFrom start)

/-! ## Exports -/

/-- Everything of another module. -/
def exportAll : Parse Export := do
  discard advance
  let source ← fromClause
  terminator false
  return .all source

/-- A list of names, perhaps of another module. -/
def exportNamed : Parse Export := do
  let names ← exportList g
  let source? ← if ← atWord "from" then some <$> fromClause else pure none
  terminator false
  return .named names source?

/-- **The default of a module.** A class may do without a name here. -/
def exportDefault : Parse Export := do
  discard advance
  if ← atKeyword .kwClass then
    let c ← classDefinition g true
    declarationEnd
    return .default (.classDef c)
  else
    let e ← assignment g
    if e.isDeclarationLike then declarationEnd else terminator false
    return .default e

/-- Variables. -/
def exportVariables : Parse Export := do
  let d ← variableDeclaration g
  terminator false
  return .bindings d

/-- A function that runs on the side, behind the word for it. -/
def exportAsync : Parse Export := do
  if (← atWord "async") && (← peek).isKeyword .kwFunction then
    let start := (← advance).span.start
    return .declaration (← functionExpression g true start)
  else
    unexpected "declaration or export clause"

/-- **What an export names.** -/
def exported : Parse Export := do
  match (← current).kind with
  | .punctuator .star => exportAll
  | .punctuator .lBrace => exportNamed g
  | .keyword .kwDefault => exportDefault g
  | .keyword .kwVar | .keyword .kwLet | .keyword .kwConst =>
    exportVariables g
  | .keyword .kwFunction =>
    return .declaration (← functionExpression g false (← here))
  | .keyword .kwClass =>
    return .declaration (.classDef (← classDefinition g true))
  | _ => exportAsync g

/-- **An export.** -/
def exportStatement : Parse Statement := do
  let start := (← advance).span.start
  let e ← exported g
  return .exportNames e (← spanFrom start)

end ScriptTree.Parse
