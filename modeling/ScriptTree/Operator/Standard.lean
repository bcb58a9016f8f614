import ScriptTree.Operator.Table

/-!
# The standard operator table

The levels of the language, from the comma up to the access to a member.
Two of its rows are worth a look. The comma groups to the right, so that
`a, b, c` is `a, (b, c)`; and the bitwise operators share the levels of
the logical ones, so that `a | b && c` groups like `a || b && c`.
-/

namespace ScriptTree.OperatorTable

/-- An operator sign on a level; its fixity is the place it is looked up
for. -/
def sign (fixity : Fixity) (precedence : Precedence)
    (associativity : Associativity) (p : Punctuator) :
    Operator × OperatorInfo :=
  (.punctuator p fixity, ⟨precedence, associativity, fixity⟩)

/-- A reserved word on a level. -/
def word (fixity : Fixity) (precedence : Precedence)
    (associativity : Associativity) (k : Keyword) :
    Operator × OperatorInfo :=
  (.keyword k fixity, ⟨precedence, associativity, fixity⟩)

/-- Operators between two operands, from the loosest level on. -/
def betweenEntries : List (Operator × OperatorInfo) :=
  [sign .between .comma .right .comma]
  ++ [.assign, .plusEq, .minusEq, .starEq, .slashEq].map
      (sign .between .assignment .right)
  ++ [sign .between .choice .right .question]
  ++ [.orOr, .or, .xor].map (sign .between .disjunction .left)
  ++ [.andAnd, .and].map (sign .between .conjunction .left)
  ++ [.plus, .minus].map (sign .between .additive .left)
  ++ [.lt, .ltEq, .gt, .gtEq, .eqEq, .eqEqEq, .notEq, .notEqEq].map
      (sign .between .relational .left)
  ++ [.kwInstanceof, .kwIn].map (word .between .relational .left)
  ++ [.star, .slash, .percent, .ltLt, .gtGt].map
      (sign .between .multiplicative .left)

/-- Operators with one operand, and after them calls and accesses. -/
def unaryEntries : List (Operator × OperatorInfo) :=
  [.kwTypeof, .kwDelete, .kwVoid, .kwAwait].map
    (word .before .wordOperator .right)
  ++ [.not, .tilde].map (sign .before .negation .right)
  ++ [.minus, .plus].map (sign .before .sign .right)
  ++ [.plusPlus, .minusMinus].map (sign .before .increment .right)
  ++ [.plusPlus, .minusMinus].map (sign .after .increment .left)
  ++ [word .before .construction .right .kwNew]
  ++ [sign .after .call .left .lParen]
  ++ [sign .after .member .left .dot]
  ++ [sign .after .member .right .lBracket]

/-- **The table the parser uses unless it is given another.** -/
def standard : OperatorTable := ⟨betweenEntries ++ unaryEntries⟩

end ScriptTree.OperatorTable
