import ScriptTree.Parse.Error

/-!
# What happened during a parse

Beside the tree and the diagnostics a parse leaves a record of the
decisions it took: where it began a statement, where it mended an error
on the spot, and where it gave a statement up. An `Event` is one such
decision; its wording is a function on it.
-/

namespace ScriptTree

/-- **A place of the grammar where an error is mended on the spot**: the
text up to the place's delimiter becomes an error node, and the construct
around it goes on. -/
inductive TolerantPoint where
  /-- The expression of an expression statement. -/
  | expressionStatement
  /-- The expression between parentheses. -/
  | parenthesized
  /-- One binding of a declaration. -/
  | varBinding
  /-- One part of the header of a loop. -/
  | forHeader
  /-- An element of an array or a member of an object. -/
  | listElement
  /-- An argument of a call. -/
  | argument
  /-- The expression between square brackets. -/
  | subscriptIndex
deriving Repr, DecidableEq

namespace TolerantPoint

/-- The place in words. -/
def description : TolerantPoint → String
  | expressionStatement => "expression statement"
  | parenthesized => "parenthesized expression"
  | varBinding => "variable binding"
  | forHeader => "for header"
  | listElement => "list element"
  | argument => "argument"
  | subscriptIndex => "subscript index"

/-- **Whether a token ends the text to be passed over**, outside of any
brackets opened in it. Closing brackets and the end of the text end it
anyway. -/
def syncsAt (point : TolerantPoint) (token : Token)
    (newlineBefore : Bool) : Bool :=
  match point with
  | expressionStatement => token.isPunctuator .semicolon || newlineBefore
  | varBinding =>
    token.isPunctuator .comma || token.isPunctuator .semicolon
      || newlineBefore
  | forHeader => token.isPunctuator .semicolon
  | listElement | argument => token.isPunctuator .comma
  | parenthesized | subscriptIndex => false

end TolerantPoint

/-- **One decision of a parse.** -/
inductive Event where
  /-- A statement begins at an offset with a token of some kind. -/
  | statement (offset : Nat) (kind : TokenKind)
  /-- An error was mended: the span became an error node. -/
  | recovered (point : TolerantPoint) (span : Span) (error : ParseError)
  /-- The statement that began at an offset was given up. -/
  | abandoned (offset : Nat) (error : ParseError)
deriving Repr, DecidableEq

namespace Event

/-- How much a reader cares: the course of a parse is only traced, what
went wrong in it is for debugging. -/
def level : Event → String
  | statement .. => "TRACE"
  | recovered .. | abandoned .. => "DEBUG"

/-- The event in words. -/
def message : Event → String
  | statement offset kind =>
    "statement at " ++ toString offset ++ ": " ++ kind.label
  | recovered point span error =>
    "recovered " ++ point.description ++ " at " ++ toString span.start
      ++ ".." ++ toString span.stop ++ ": " ++ error.message
  | abandoned offset error =>
    "statement at " ++ toString offset ++ " abandoned: " ++ error.message

end Event

end ScriptTree
