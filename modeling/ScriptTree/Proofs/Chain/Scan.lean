import ScriptTree.Tree.Operators
import ScriptTree.Token.Significant
import ScriptTree.Proofs.Cursor.Session

/-!
# Chains of operators

A **chain** is a text of names with operators between them, all of them
with one space in between. It is the simplest text in which an operator
table has something to decide, and everything the table decides shows in
it: which of the operators are inside which others.

Here is what a scanner finds in a chain. A name ends before a space, so it
is not longer than it was meant to be; a mark that is an operator is not a
shorter piece of a longer mark for the same reason; and the slash divides
because a name stands before it.
-/

namespace ScriptTree

/-! ## Operators as tokens -/

/-- The kind of the token an operator between two operands is. -/
def BinaryOperator.tokenKind : BinaryOperator → TokenKind
  | and => .punctuator .andAnd
  | or => .punctuator .orOr
  | add => .punctuator .plus
  | sub => .punctuator .minus
  | mul => .punctuator .star
  | div => .punctuator .slash
  | mod => .punctuator .percent
  | bitAnd => .punctuator .and
  | bitOr => .punctuator .or
  | bitXor => .punctuator .xor
  | leftShift => .punctuator .ltLt
  | rightShift => .punctuator .gtGt
  | lt => .punctuator .lt
  | ltEq => .punctuator .ltEq
  | gt => .punctuator .gt
  | gtEq => .punctuator .gtEq
  | eq => .punctuator .eqEq
  | strictEq => .punctuator .eqEqEq
  | notEq => .punctuator .notEq
  | strictNotEq => .punctuator .notEqEq
  | instanceOf => .keyword .kwInstanceof
  | isIn => .keyword .kwIn

/-! ## Names -/

/-- **A name** as a script may write it: a word that is not reserved. -/
structure Name where
  /-- Its first character. -/
  head : Char
  /-- The characters after it. -/
  tail : List Char
  /-- A name may begin with the first. -/
  isWordStart_head : isWordStart head = true
  /-- It may go on with the others. -/
  isWordChar_tail : ∀ c ∈ tail, isWordChar c = true
  /-- The word is not reserved. -/
  not_reserved : Keyword.ofSpelling? (String.ofList (head :: tail)) = none

/-- The characters of a name. -/
def Name.text (x : Name) : List Char := x.head :: x.tail

/-- The name as a tree has it. -/
def Name.spelling (x : Name) : String := String.ofList x.text

/-! ## Chains -/

/-- **A link of a chain**: an operator, and the name behind it. -/
structure Link where
  /-- The operator. -/
  operator : BinaryOperator
  /-- The name. -/
  name : Name

/-- **A chain**: a name with any number of links behind it. -/
structure Chain where
  /-- The first name. -/
  first : Name
  /-- The links. -/
  links : List Link

/-- The text of some links, each with a space before the operator and one
behind it. -/
def Link.textOf : List Link → List Char
  | [] => []
  | link :: links =>
    ' ' :: (link.operator.spelling.toList
      ++ ' ' :: (link.name.text ++ textOf links))

/-- **The text of a chain.** -/
def Chain.text (chain : Chain) : List Char :=
  chain.first.text ++ Link.textOf chain.links

/-- Behind a name or an operator of a chain the text goes on with a space,
or ends. -/
def Spaced (text : List Char) : Prop := ∀ c ∈ text.head?, c = ' '

theorem spaced_textOf (links : List Link) : Spaced (Link.textOf links) := by
  cases links with
  | nil => exact fun _ h => nomatch h
  | cons link links => exact fun _ h => (Option.some.inj h).symm

/-! ## Lexemes -/

section Lexemes

variable {behind : List Char}

theorem isBlank_eq_false_of_isWordStart {c : Char}
    (h : isWordStart c = true) : isBlank c = false := by
  rw [Bool.eq_false_iff]
  intro hblank
  simp only [isBlank, Bool.or_eq_true, decide_eq_true_eq] at hblank
  rcases hblank with (((((rfl | rfl) | rfl) | rfl) | rfl) | rfl) | rfl
  all_goals exact absurd h (by decide)

theorem isDigit_eq_false_of_isWordStart {c : Char}
    (h : isWordStart c = true) : c.isDigit = false := by
  rw [Bool.eq_false_iff]
  intro hdigit
  have hnine : c.val.toNat ≤ 57 :=
    UInt32.le_iff_toNat_le.1
      (of_decide_eq_true (Bool.and_eq_true_iff.1 hdigit).2)
  simp only [isWordStart, Bool.or_eq_true, decide_eq_true_eq] at h
  rcases h with (halpha | rfl) | rfl
  · rcases Bool.or_eq_true_iff.1 halpha with hcase | hcase
    · have hupper : 65 ≤ c.val.toNat :=
        UInt32.le_iff_toNat_le.1 (of_decide_eq_true hcase).1
      omega
    · have hlower : 97 ≤ c.val.toNat :=
        UInt32.le_iff_toNat_le.1
          (of_decide_eq_true (Bool.and_eq_true_iff.1 hcase).1)
      omega
  · exact absurd hdigit (by decide)
  · exact absurd hdigit (by decide)

theorem not_mem_firsts_of_isWordStart {c : Char}
    (h : isWordStart c = true) : c ∉ Punctuator.firsts := by
  have hall : (Punctuator.firsts.all fun c => !isWordStart c) = true := by
    decide
  intro hmem
  have hnot := List.all_eq_true.mp hall c hmem
  rw [h] at hnot
  exact nomatch hnot

/-- **A name ends where the text goes on with a space.** -/
theorem Lexeme.atFront_name (slashDivides : Bool) (x : Name)
    (h : Spaced behind) :
    atFront slashDivides x.head (x.tail ++ behind)
      = ⟨.identifier, x.tail.length, none⟩ := by
  have hstart := x.isWordStart_head
  have hfirsts := not_mem_firsts_of_isWordStart hstart
  have hne {c : Char} (hc : isWordStart c = false) : x.head ≠ c := by
    rintro rfl
    rw [hc] at hstart
    exact nomatch hstart
  have htail : (x.tail ++ behind).takeWhile isWordChar = x.tail := by
    rw [List.takeWhile_append_of_pos x.isWordChar_tail]
    cases behind with
    | nil => exact List.append_nil x.tail
    | cons c behind =>
      obtain rfl : c = ' ' := h c rfl
      exact List.append_nil x.tail
  rw [atFront_of_ne_slash _ (hne (by decide)), Punctuator.longest?_cons,
    Punctuator.behind_eq_nil hfirsts]
  dsimp only [List.find?_nil, Option.map_none]
  rw [if_neg (by simp [hne (c := '"') (by decide),
      hne (c := '\x27') (by decide)]),
    if_neg (hne (by decide)),
    if_neg (by rw [isDigit_eq_false_of_isWordStart hstart]; decide),
    if_pos hstart, word, htail, x.not_reserved]

/-- **An operator ends where the text goes on with a space**, and a slash
behind a name is one. -/
theorem Lexeme.atFront_operator (operator : BinaryOperator)
    (behind : List Char) :
    ∃ c cs, operator.spelling.toList = c :: cs
      ∧ isBlank c = false ∧ c ≠ '\n'
      ∧ atFront true c (cs ++ ' ' :: behind)
        = ⟨operator.tokenKind, cs.length, none⟩ := by
  cases operator <;> exact ⟨_, _, rfl, by decide, by decide, rfl⟩

end Lexemes

namespace Scanner

/-- **What a scanner meets**: a token of the grammar with nothing before
it and nothing wrong, and the text behind it. -/
structure Meets (s : Scanner) (kind : TokenKind) (text behind : List Char) :
    Prop where
  /-- There are no extras. -/
  extras_eq : s.nextSignificant.extras = []
  /-- The token is of this kind. -/
  kind_eq : s.nextSignificant.token.kind = kind
  /-- It has this text. -/
  text_eq : s.nextSignificant.token.text = String.ofList text
  /-- Nothing is wrong with it. -/
  error_eq : s.nextSignificant.token.error = none
  /-- This text is behind it. -/
  rest_eq : s.nextSignificant.scanner.rest = behind

variable {s : Scanner} {front behind : List Char}

/-- **A token of the grammar at the scanner's place** is the next one, and
nothing is passed before it. -/
theorem nextSignificant_of_read {kind : TokenKind} {c : Char}
    {cs : List Char} {n : Nat} (hrest : s.settle.rest = c :: cs)
    (hc : c ≠ '\n')
    (hlexeme : Lexeme.atFront (s.settle.previous.any
      TokenKind.canEndExpression) c cs = ⟨kind, n, none⟩)
    (hkind : kind.isExtra = false) :
    s.nextSignificant = ⟨[], (s.settle.take kind (n + 1) none).1,
      (s.settle.past (n + 1)).remember kind⟩ := by
  have hnext : s.next = ((s.settle.take kind (n + 1) none).1,
      (s.settle.past (n + 1)).remember kind) := by
    have h := read_cons hrest hc
    rwa [hlexeme] at h
  unfold nextSignificant nextSignificantFrom
  simp [hnext, hkind]

/-- Such a token is met. -/
theorem meets_of_read {kind : TokenKind} {c : Char} {cs : List Char}
    {n : Nat} (hrest : s.settle.rest = c :: cs) (hc : c ≠ '\n')
    (hlexeme : Lexeme.atFront (s.settle.previous.any
      TokenKind.canEndExpression) c cs = ⟨kind, n, none⟩)
    (hkind : kind.isExtra = false) :
    s.Meets kind (c :: cs.take n) (cs.drop n)
      ∧ s.nextSignificant.scanner
        = (s.settle.past (n + 1)).remember kind := by
  have hstep := nextSignificant_of_read hrest hc hlexeme hkind
  refine ⟨⟨?_, ?_, ?_, ?_, ?_⟩, ?_⟩
  all_goals rw [hstep]
  · rfl
  · show String.ofList (s.settle.rest.take (n + 1)) = _
    rw [hrest, List.take_succ_cons]
  · rfl
  · rw [remember_rest, past_rest, hrest, List.drop_succ_cons]

/-- **A name is met**, and the scanner remembers it. -/
theorem meets_name {x : Name} (h : s.Before (x.text ++ behind))
    (hbehind : Spaced behind) :
    s.Meets .identifier x.text behind
      ∧ s.nextSignificant.scanner.previous = some .identifier := by
  have hblank := isBlank_eq_false_of_isWordStart x.isWordStart_head
  have hline : x.head ≠ '\n' := by
    intro hline
    have hstart := x.isWordStart_head
    rw [hline] at hstart
    exact nomatch hstart
  have h : s.Before (x.head :: (x.tail ++ behind)) := h
  obtain ⟨hrest, _⟩ := h.settle hblank hline
  obtain ⟨hmeets, hscanner⟩ := meets_of_read hrest hline
    (Lexeme.atFront_name _ x hbehind) rfl
  rw [List.take_left, List.drop_left] at hmeets
  exact ⟨hmeets, by rw [hscanner]; rfl⟩

/-- **An operator behind a name is met.** -/
theorem meets_operator {operator : BinaryOperator}
    (h : s.rest = ' ' :: (operator.spelling.toList ++ ' ' :: behind))
    (hprevious : s.previous = some .identifier) :
    s.Meets operator.tokenKind operator.spelling.toList (' ' :: behind) := by
  obtain ⟨c, cs, hspelling, hblank, hline, hlexeme⟩ :=
    Lexeme.atFront_operator operator behind
  rw [hspelling, List.cons_append] at h
  have h : s.Before (c :: (cs ++ ' ' :: behind)) := .inr h
  obtain ⟨hrest, hsettle⟩ := h.settle hblank hline
  have hextra : operator.tokenKind.isExtra = false := by
    cases operator <;> rfl
  obtain ⟨hmeets, _⟩ := meets_of_read hrest hline
    (by rw [hsettle, hprevious]; exact hlexeme) hextra
  rwa [List.take_left, List.drop_left, ← hspelling] at hmeets

/-- At the end of the text the end is found, and the scanner stays. -/
theorem nextSignificant_of_end (h : s.rest = []) :
    s.nextSignificant = ⟨[], (s.take .eof 0 none).1, s⟩ := by
  unfold nextSignificant nextSignificantFrom
  rw [next_of_rest h]
  rfl

/-- It is met. -/
theorem meets_end (h : s.rest = []) : s.Meets .eof [] [] := by
  have hstep := nextSignificant_of_end h
  refine ⟨?_, ?_, ?_, ?_, ?_⟩
  all_goals rw [hstep]
  · rfl
  · rfl
  · rfl
  · exact h

end Scanner

end ScriptTree
