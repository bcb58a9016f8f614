/-!
# Reserved words

The words a script may not use as names. Each is one constructor of
`Keyword`, and its spelling is a function on it, so that the word is
written down once: looking a word up searches the spellings.

Words with a meaning only in some places – `async`, `static`, `get`,
`set`, `of`, `as`, `from` – are not reserved and stay ordinary names.
-/

namespace ScriptTree

/-- **A reserved word.** `undefined` is one of them here. -/
inductive Keyword where
  | kwAwait | kwBreak | kwCase | kwCatch | kwClass
  | kwConst | kwContinue | kwDefault | kwDelete | kwDo
  | kwElse | kwExport | kwExtends | kwFalse | kwFinally
  | kwFor | kwFunction | kwIf | kwImport | kwIn
  | kwInstanceof | kwLet | kwNew | kwNull | kwReturn
  | kwSuper | kwSwitch | kwThis | kwThrow | kwTrue
  | kwTry | kwTypeof | kwUndefined | kwVar | kwVoid
  | kwWhile | kwYield
deriving Repr, DecidableEq

namespace Keyword

/-- The word as a script writes it. -/
def spelling : Keyword → String
  | kwAwait => "await"
  | kwBreak => "break"
  | kwCase => "case"
  | kwCatch => "catch"
  | kwClass => "class"
  | kwConst => "const"
  | kwContinue => "continue"
  | kwDefault => "default"
  | kwDelete => "delete"
  | kwDo => "do"
  | kwElse => "else"
  | kwExport => "export"
  | kwExtends => "extends"
  | kwFalse => "false"
  | kwFinally => "finally"
  | kwFor => "for"
  | kwFunction => "function"
  | kwIf => "if"
  | kwImport => "import"
  | kwIn => "in"
  | kwInstanceof => "instanceof"
  | kwLet => "let"
  | kwNew => "new"
  | kwNull => "null"
  | kwReturn => "return"
  | kwSuper => "super"
  | kwSwitch => "switch"
  | kwThis => "this"
  | kwThrow => "throw"
  | kwTrue => "true"
  | kwTry => "try"
  | kwTypeof => "typeof"
  | kwUndefined => "undefined"
  | kwVar => "var"
  | kwVoid => "void"
  | kwWhile => "while"
  | kwYield => "yield"

/-- Every reserved word, in the order of the alphabet. -/
def all : List Keyword :=
  [ kwAwait, kwBreak, kwCase, kwCatch,
    kwClass, kwConst, kwContinue, kwDefault,
    kwDelete, kwDo, kwElse, kwExport,
    kwExtends, kwFalse, kwFinally, kwFor,
    kwFunction, kwIf, kwImport, kwIn,
    kwInstanceof, kwLet, kwNew, kwNull,
    kwReturn, kwSuper, kwSwitch, kwThis,
    kwThrow, kwTrue, kwTry, kwTypeof,
    kwUndefined, kwVar, kwVoid, kwWhile,
    kwYield ]

/-- **The reserved word with a given spelling**, if there is one. -/
def ofSpelling? (word : String) : Option Keyword :=
  all.find? (fun k => k.spelling = word)

/-- The name of the word in a record: its spelling with a capital. -/
def label (k : Keyword) : String := k.spelling.capitalize

theorem mem_all (k : Keyword) : k ∈ all := by
  cases k <;> decide

/-- No two words share a spelling. -/
theorem spelling_injective {k l : Keyword} (h : k.spelling = l.spelling) :
    k = l := by
  have hall : ∀ k ∈ all, ∀ l ∈ all, k.spelling = l.spelling → k = l := by
    decide
  exact hall k (mem_all k) l (mem_all l) h

/-- **A look-up finds exactly the word that is spelled so.** -/
theorem ofSpelling?_eq_some_iff {word : String} {k : Keyword} :
    ofSpelling? word = some k ↔ k.spelling = word := by
  constructor
  · intro h
    simpa using List.find?_some h
  · rintro rfl
    cases h : ofSpelling? k.spelling with
    | none =>
      have := List.find?_eq_none.1 h k (mem_all k)
      simp at this
    | some l =>
      have hl : l.spelling = k.spelling := by simpa using List.find?_some h
      rw [spelling_injective hl]

end Keyword

end ScriptTree
