import ScriptTree.Token.Scanner

/-!
# The tokens of the grammar

The grammar sees neither comments nor line breaks. `nextSignificant`
takes the scanner to the next token the grammar sees and hands over what
was passed on the way, for whoever keeps comments or minds line breaks.

A scanner is a value, so to look ahead is to scan and to forget the
scanner: `peek`, `peekSecond` and `parameterListFollows` do no more.
-/

namespace ScriptTree

/-- **A step to the next token of the grammar.** -/
structure Advance where
  /-- The comments and line breaks on the way, in the order of the
  text. -/
  extras : List Token
  /-- The token. -/
  token : Token
  /-- The scanner behind the token. -/
  scanner : Scanner

namespace Scanner

/-- The step from a scanner, with the extras found so far, the last of
them first. -/
def nextSignificantFrom (s : Scanner) (extras : List Token) : Advance :=
  let step := s.next
  if step.1.kind.isExtra then
    step.2.nextSignificantFrom (step.1 :: extras)
  else ⟨extras.reverse, step.1, step.2⟩
termination_by s.rest.length
decreasing_by
  refine next_rest_length_lt s ?_
  rename_i h
  change s.next.1.kind.isExtra = true at h
  cases hk : s.next.1.kind <;> simp_all [Token.isEof, TokenKind.isExtra]

/-- **The step to the next token of the grammar.** -/
def nextSignificant (s : Scanner) : Advance := s.nextSignificantFrom []

theorem nextSignificantFrom_rest_length_lt (s : Scanner)
    (extras : List Token)
    (h : (s.nextSignificantFrom extras).token.isEof = false) :
    (s.nextSignificantFrom extras).scanner.rest.length
      < s.rest.length := by
  fun_induction nextSignificantFrom s extras with
  | case1 s extras step hextra ih =>
    refine Nat.lt_trans (ih h) (next_rest_length_lt s ?_)
    change s.next.1.kind.isExtra = true at hextra
    cases hk : s.next.1.kind <;> simp_all [Token.isEof, TokenKind.isExtra]
  | case2 s extras step hextra => exact next_rest_length_lt s h

/-- **Every token of the grammar takes something away** from what is left
to read. -/
theorem nextSignificant_rest_length_lt (s : Scanner)
    (h : s.nextSignificant.token.isEof = false) :
    s.nextSignificant.scanner.rest.length < s.rest.length :=
  nextSignificantFrom_rest_length_lt s [] h

/-! ## Looking ahead -/

/-- The next token of the grammar. -/
def peek (s : Scanner) : Token := s.nextSignificant.token

/-- The token of the grammar after the next one. -/
def peekSecond (s : Scanner) : Token :=
  let step := s.nextSignificant
  if step.token.isEof then step.token else step.scanner.peek

/-- Whether an arrow comes next. -/
def arrowFollows (s : Scanner) : Bool := s.peek.isPunctuator .arrow

/-- Whether names with commas between them come next, then a closing
parenthesis, then an arrow. -/
def namesAndArrowFollow (s : Scanner) : Bool :=
  let name := s.nextSignificant
  if name.token.kind = .identifier then
    let mark := name.scanner.nextSignificant
    if mark.token.isPunctuator .comma then
      mark.scanner.namesAndArrowFollow
    else mark.token.isPunctuator .rParen && mark.scanner.arrowFollows
  else false
termination_by s.rest.length
decreasing_by
  rename_i hname hmark
  refine Nat.lt_trans (nextSignificant_rest_length_lt _ ?_)
    (nextSignificant_rest_length_lt s ?_)
  · simpa [Token.isEof, Token.isPunctuator] using
      fun h => by simp [Token.isPunctuator, mark, name, h] at hmark
  · change s.nextSignificant.token.kind = .identifier at hname
    simp [Token.isEof, hname]

/-- **Whether the rest of a parameter list comes next, with an arrow
behind it.** The opening parenthesis has been read. -/
def parameterListFollows (s : Scanner) : Bool :=
  let first := s.nextSignificant
  if first.token.isPunctuator .rParen then first.scanner.arrowFollows
  else s.namesAndArrowFollow

end Scanner

end ScriptTree
