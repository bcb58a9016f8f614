import ScriptTree.Proofs.Chain.Script
import ScriptTree.Tree.Dump
import ScriptTree.Tree.Move
import Mathlib.Data.List.Induction

/-!
# Chains of one operator

With one operator only, a chain has one grouping to the left, and which
one that is does not depend on the table: the first application is the
innermost one (`Expression.leftNest`). An operator that a table has group
to the left gives this tree on every level but the tightest
(`parseWith_leftNest`): there is no level above it that the right operand
could be held to, so the operand takes the next operator with it and the
chain groups to the right (`exists_rightNest`).
-/

namespace ScriptTree

variable {operator : BinaryOperator} {x y : Name} {names : List Name}
  {e : Expression} {table : OperatorTable} {info : OperatorInfo}

/-- **A chain of one operator.** -/
def Chain.repeated (operator : BinaryOperator) (x : Name)
    (names : List Name) : Chain :=
  ⟨x, names.map fun y => ⟨operator, y⟩⟩

/-- A name as an expression, at no place. -/
def Name.expression (x : Name) : Expression :=
  .identifier ⟨x.spelling, ⟨0, 0⟩⟩

/-- **The grouping to the left**: what has been read so far is the left
operand of the next operator. It stands at no place. -/
def Expression.leftNest (operator : BinaryOperator) (x : Name)
    (names : List Name) : Expression :=
  names.foldl (fun e y => .binary operator e y.expression ⟨0, 0⟩)
    x.expression

/-- An expression at no place: all its spans are empty and at the start. -/
def Expression.placeless (e : Expression) : Expression := e.move fun _ => 0

theorem Expression.leftNest_concat (names : List Name) (y : Name) :
    leftNest operator x (names ++ [y])
      = .binary operator (leftNest operator x names) y.expression ⟨0, 0⟩ :=
  List.foldl_append ..

/-! ## The pieces of such a chain -/

namespace Chain

/-- The pieces behind the first name. -/
theorem repeated_items_concat (names : List Name) (y : Name) :
    (repeated operator x (names ++ [y])).items
      = (repeated operator x names).items
        ++ [.operator operator, .name y.spelling] := by
  simp [items, repeated, Link.items, List.flatMap_append]

/-- There is no operator but the one. -/
theorem operator_eq_of_mem {o : BinaryOperator}
    (h : .operator o ∈ (repeated operator x names).items) : o = operator := by
  obtain ⟨y, -, rfl⟩ : ∃ y, y ∈ names ∧ o = operator := by
    simpa [items, repeated, Link.items] using h
  rfl

end Chain

/-! ## Grouping to the left -/

/-- **A right operand is a name**, where operators group to the left and
are all alike: an operation there would have to be on a tighter level. -/
theorem Expression.exists_name_of_right {left right : Expression}
    {span : Span} (hinfo : table.between? operator = some info)
    (hassoc : info.associativity = .left)
    (hheeds : (Expression.binary operator left right span).Heeds table)
    (hsame : ∀ o, .operator o ∈ right.inOrder → o = operator)
    (hread : right.inOrder ≠ []) :
    ∃ id, right = .identifier id := by
  cases right with
  | identifier id => exact ⟨id, rfl⟩
  | binary o l r s =>
    have hsame : o = operator := hsame o (by simp [inOrder])
    subst hsame
    have hadmits := (hheeds.1 info hinfo).2 info hinfo
    unfold OperatorInfo.AdmitsRight at hadmits
    rw [hassoc] at hadmits
    exact absurd hadmits (Int.lt_irrefl _)
  | _ => exact absurd rfl hread

/-- **The grouping is the one to the left.** -/
theorem Expression.placeless_eq_leftNest
    (hinfo : table.between? operator = some info)
    (hassoc : info.associativity = .left) (hheeds : e.Heeds table)
    (hread : e.inOrder = (Chain.repeated operator x names).items) :
    e.placeless = leftNest operator x names := by
  -- The last link is the outermost operation, and its right operand is the
  -- name of the link.
  induction names using List.reverseRecOn generalizing e with
  | nil =>
    cases e with
    | identifier id =>
      have hname : id.name = x.spelling := by
        simpa [inOrder, Chain.items, Chain.repeated, Link.items] using hread
      show Expression.identifier ⟨id.name, ⟨0, 0⟩⟩ = x.expression
      rw [hname]
      rfl
    | binary o left right span =>
      have hmem : .operator o ∈ (Chain.repeated operator x []).items :=
        hread ▸ List.mem_append_right _ List.mem_cons_self
      simp [Chain.items, Chain.repeated, Link.items] at hmem
    | _ => exact absurd hread.symm (List.cons_ne_nil _ _)
  | append_singleton names y ih =>
    have hitems := hread.trans (Chain.repeated_items_concat names y)
    cases e with
    | identifier id =>
      have hlength := congrArg List.length hitems
      simp [inOrder] at hlength
    | binary o left right span =>
      have hsame (o') (h : .operator o'
          ∈ (binary o left right span).inOrder) : o' = operator :=
        Chain.operator_eq_of_mem (hread ▸ h)
      have ho : o = operator := hsame o (by simp [inOrder])
      subst ho
      obtain ⟨id, rfl⟩ := exists_name_of_right hinfo hassoc hheeds
        (fun o' h => hsame o' (by simp [inOrder, h])) (fun hnil => by
          have hlast := congrArg List.getLast? hitems
          simp [inOrder, hnil] at hlast)
      obtain ⟨hleft, hright⟩ := List.append_inj' hitems rfl
      have hname : id.name = y.spelling := by simpa [inOrder] using hright
      rw [leftNest_concat, ← ih hheeds.2.1 hleft]
      show Expression.binary o left.placeless
        (.identifier ⟨id.name, ⟨0, 0⟩⟩) ⟨0, 0⟩ = _
      rw [hname]
      rfl
    | _ => exact absurd hitems.symm (by simp [inOrder])

/-- A table's word on an operator that groups to the left is enough for
the chains of it, below the tightest level. -/
theorem OperatorTable.orders_repeated {p : Precedence}
    (hinfo : table.between? operator = some ⟨p, .left, .between⟩)
    (hlow : -1 ≤ p.level) (hhigh : p.level ≤ 126) :
    table.Orders (Chain.repeated operator x names).links where
  exists_between h := by
    obtain ⟨y, -, rfl⟩ := List.mem_map.mp h
    exact ⟨_, hinfo, rfl, hlow, hhigh⟩
  associativity_eq h h' info info' heq heq' _ := by
    obtain ⟨y, -, rfl⟩ := List.mem_map.mp h
    obtain ⟨z, -, rfl⟩ := List.mem_map.mp h'
    rw [Option.some.inj (heq.symm.trans heq')]

/-- **Left grouping.** Names with one operator between them, which the
table has group to the left on a level below the tightest, are parsed
without a problem, and the first application is the innermost one. -/
theorem parseWith_leftNest {options : Options} {p : Precedence}
    (hinfo : table.between? operator = some ⟨p, .left, .between⟩)
    (hlow : -1 ≤ p.level) (hhigh : p.level ≤ 126)
    (hdepth : names.length + 2 ≤ options.maxNestingDepth)
    (htrailing : options.allowTrailingStatement = true) :
    (parseWith options table (Chain.repeated operator x names).text).diagnostics
        = []
      ∧ (parseWith options table
          (Chain.repeated operator x names).text).program.body.map
            (Statement.move fun _ => 0)
        = [.expression (.leftNest operator x names) ⟨0, 0⟩] := by
  have horders : table.Orders (Chain.repeated operator x names).links :=
    OperatorTable.orders_repeated hinfo hlow hhigh
  obtain ⟨hquiet, e, span, hbody, hspells⟩ := parseWith_spells horders
    (by simpa [Chain.repeated] using hdepth) htrailing
  refine ⟨hquiet, ?_⟩
  rw [hbody, ← Expression.placeless_eq_leftNest hinfo rfl hspells.heeds
    hspells.inOrder_eq]
  rfl

/-- A table of sums only, which group to the left on a level. -/
def OperatorTable.sums (level : Int) : OperatorTable :=
  ⟨[(.punctuator .plus .between, ⟨⟨level⟩, .left, .between⟩)]⟩

/-- The first of three names. -/
def Name.first : Name := .ofLetter 'a' (by decide)

/-- The second of them. -/
def Name.second : Name := .ofLetter 'b' (by decide)

/-- The third of them. -/
def Name.third : Name := .ofLetter 'c' (by decide)

/-- A sum of four names, one level below the tightest, with no nesting to
spare. -/
theorem parseWith_leftNest_sums :
    let options := { Options.standard with maxNestingDepth := 5 }
    let source := (Chain.repeated .add .first [.second, .third, .second]).text
    ((OperatorTable.sums 126).between? .add = some ⟨⟨126⟩, .left, .between⟩
      ∧ (-1 : Int) ≤ 126 ∧ (126 : Int) ≤ 126
      ∧ 3 + 2 ≤ options.maxNestingDepth
      ∧ options.allowTrailingStatement = true)
      ∧ (parseWith options (.sums 126) source).diagnostics = []
      ∧ (parseWith options (.sums 126) source).program.body.map
          (Statement.move fun _ => 0)
        = [.expression (.leftNest .add .first [.second, .third, .second])
            ⟨0, 0⟩] :=
  ⟨⟨rfl, by decide, by decide, by decide, rfl⟩,
    parseWith_leftNest rfl (by decide) (by decide) (by decide) rfl⟩

/-- **On the tightest level** an operator that is to group to the left
groups to the right. -/
theorem exists_rightNest :
    ∃ (table : OperatorTable) (x : Name) (names : List Name),
      table.between? .add = some ⟨⟨127⟩, .left, .between⟩
        ∧ names.length + 2 ≤ Options.standard.maxNestingDepth
        ∧ (parseWith .standard table
            (Chain.repeated .add x names).text).diagnostics = []
        ∧ (parseWith .standard table
            (Chain.repeated .add x names).text).program.dump
          = "(program (expression_statement (binary \"+\" (identifier a) "
            ++ "(binary \"+\" (identifier b) (identifier c)))))"
        ∧ (parseWith .standard table
            (Chain.repeated .add x names).text).program.body.map
              (Statement.move fun _ => 0)
          ≠ [.expression (.leftNest .add x names) ⟨0, 0⟩] := by
  refine ⟨.sums 127, .first, [.second, .third], rfl, by decide,
    by decide +kernel, by decide +kernel, fun h => ?_⟩
  have hdump := congrArg (fun body => (Program.mk body [] ⟨0, 0⟩).dump) h
  exact absurd hdump (by decide +kernel)

end ScriptTree
