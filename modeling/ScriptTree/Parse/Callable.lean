import ScriptTree.Parse.Grammar

/-!
# Functions, classes and methods

The constructs with a parameter list and a body. They count no level of
their own; their parameters, bodies and methods do.
-/

namespace ScriptTree.Parse

open ScriptTree.Action

variable (g : Grammar)

/-- The loop of `parameterNames`. -/
def parameterNamesFrom : (turns : Nat) → List Identifier →
    Parse (List Identifier)
  | 0, found => return found.reverse
  | turns + 1, found => do
    let id ← identifier
    if ← eat .comma then
      parameterNamesFrom turns (id :: found)
    else
      return (id :: found).reverse

/-- **Names with commas between them**, and the parenthesis behind
them. -/
def parameterNames : Parse (List Identifier) := do
  let params ←
    if ← atPunctuator .rParen then pure []
    else parameterNamesFrom (← read).turns []
  discard (expectPunctuator .rParen)
  return params

/-- The name of a function, where there is one. -/
def optionalIdentifier : Parse (Option Identifier) := do
  if ← atKind .identifier then return some (← identifier)
  else return none

/-- **A function**, whose span begins at the given offset: a word before
the function belongs to it. -/
def functionExpression (isAsync : Bool) (start : Nat) :
    Parse Expression := do
  discard (expectKeyword .kwFunction)
  let isGenerator ← eat .star
  let id? ← optionalIdentifier
  let params ← parameterList g
  let body ← g.block
  let f : Function := ⟨id?, params, body, isAsync, ← spanFrom start⟩
  return if isGenerator then .generator f else .function f

/-- The name of a class, which may be missing only where the class may do
without one. -/
def className (mayBeUnnamed : Bool) : Parse (Option Identifier) := do
  if mayBeUnnamed then optionalIdentifier
  else return some (← identifier)

/-- What a class extends: nothing looser than a call. -/
def classParent : Parse (Option Expression) := do
  if ← atKeyword .kwExtends then
    discard advance
    return some (← g.expression .call)
  else return none

/-- **A class.** -/
def classDefinition (mayBeUnnamed : Bool) : Parse Class := do
  let opening ← expectKeyword .kwClass
  let id? ← className mayBeUnnamed
  let parent? ← classParent g
  discard (expectPunctuator .lBrace)
  let methods ← g.methods
  discard (expectPunctuator .rBrace)
  return ⟨id?, parent?, methods, ← spanFrom opening.span.start⟩

/-- **Reads a modifier of a method** if it comes next, and says whether it
did. Before a parenthesis such a word is the method's name. -/
def modifier (word : String) : Action Bool := do
  if (← atWord word) && !(← peek).isPunctuator .lParen then
    discard advance
    return true
  else
    return false

/-- The flavour of a method, from the mark or word in front of its
name. -/
def methodKind : Action MethodKind := do
  if ← eat .star then return .generator
  else if ← modifier "get" then return .get
  else if ← modifier "set" then return .set
  else return .method

/-- The name of a method. -/
def methodName : Parse Identifier := do
  if namesProperty (← current) then propertyName
  else unexpected "method name"

/-- **A method**, whose span begins at the given offset. -/
def method (isStatic : Bool) (start : Nat) : Parse Method := do
  let isAsync ← modifier "async"
  let kind ← methodKind
  let key ← methodName
  let params ← parameterList g
  let body ← g.block
  return ⟨isStatic, isAsync, kind, key, params, body, ← spanFrom start⟩

/-- The loop of `classMethods`. -/
def classMethodsFrom : (turns : Nat) → List Method → Parse (List Method)
  | 0, found => return found.reverse
  | turns + 1, found => do
    let token ← current
    if token.isPunctuator .rBrace || token.isEof then
      return found.reverse
    else
      let start ← here
      let isStatic ← modifier "static"
      let m ← method g isStatic start
      discard (eat .semicolon)
      classMethodsFrom turns (m :: found)

/-- **The methods of a class**, up to the brace that closes it. A
terminator may follow each. -/
def classMethods : Parse (List Method) := do
  classMethodsFrom g (← read).turns []

end ScriptTree.Parse
