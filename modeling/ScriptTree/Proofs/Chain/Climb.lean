import ScriptTree.Proofs.Chain.Scan
import ScriptTree.Proofs.Parse.Expression
import ScriptTree.Parse.Levels

/-!
# How a table groups a chain

Whatever the table, an expression read from a chain has all names and
operators of the chain in order (`Expression.inOrder`), and each operation
in it has operands that the table allows it to have (`Expression.Heeds`).

The proof goes along the fold. An expression is read with a limit on how
loose its operators may be, and it takes of the chain what it can: it ends
at an operator that is looser than the limit, or at the end
(`ReadsChains`). For the fold this says two things. The right operand of
an operator has only operators that may be inside it; and the operator
behind that operand is one that may have all of what has been read so far
as its left operand. The second needs that operators on one level group
alike: otherwise an operator that groups to the left could be followed on
its own level by one that groups to the right, and neither may be inside
the other.
-/

namespace ScriptTree

/-! ## Expressions and tables -/

/-- **A piece of a chain.** -/
inductive ChainItem where
  /-- A name. -/
  | name (spelling : String)
  /-- An operator. -/
  | operator (operator : BinaryOperator)
deriving Repr, DecidableEq

/-- The pieces of some links. -/
def Link.items (links : List Link) : List ChainItem :=
  links.flatMap fun link => [.operator link.operator, .name link.name.spelling]

/-- **The pieces of a chain** in order. -/
def Chain.items (chain : Chain) : List ChainItem :=
  .name chain.first.spelling :: Link.items chain.links

/-- **An expression read in order**, from left to right. Only names and
operations on two operands are read. -/
def Expression.inOrder : Expression → List ChainItem
  | identifier id => [.name id.name]
  | binary operator left right _ =>
    left.inOrder ++ .operator operator :: right.inOrder
  | _ => []

namespace OperatorTable

/-- What a table says of an operator between two operands. -/
def between? (table : OperatorTable) (operator : BinaryOperator) :
    Option OperatorInfo :=
  table.find? operator.tokenKind .between

/-- What a table says of the operation an expression is. -/
def operation? (table : OperatorTable) : Expression → Option OperatorInfo
  | .binary operator .. => table.between? operator
  | _ => none

/-- **A table that says enough of the operators of a chain**: each has an
entry as an operator between two operands, on a level that is neither
looser than a sequence nor the tightest of all, and operators on one level
group alike. -/
structure Orders (table : OperatorTable) (links : List Link) : Prop where
  /-- There is an entry. -/
  exists_between {link : Link} (h : link ∈ links) :
    ∃ info, table.between? link.operator = some info
      ∧ info.fixity = .between ∧ -1 ≤ info.precedence.level
      ∧ info.precedence.level ≤ 126
  /-- Operators on one level group alike. -/
  associativity_eq {link other : Link} (h : link ∈ links)
    (h' : other ∈ links) {info info' : OperatorInfo}
    (hinfo : table.between? link.operator = some info)
    (hinfo' : table.between? other.operator = some info')
    (heq : info.precedence = info'.precedence) :
    info.associativity = info'.associativity

end OperatorTable

namespace OperatorInfo

/-- **Whether an operation may be the left operand of another one**: it is
tighter, or as tight where the outer one groups to the left. -/
def AdmitsLeft (outer inner : OperatorInfo) : Prop :=
  match outer.associativity with
  | .left => outer.precedence.level ≤ inner.precedence.level
  | .right => outer.precedence.level < inner.precedence.level

/-- **Whether an operation may be the right operand of another one**: it
is tighter, or as tight where the outer one groups to the right. -/
def AdmitsRight (outer inner : OperatorInfo) : Prop :=
  match outer.associativity with
  | .left => outer.precedence.level < inner.precedence.level
  | .right => outer.precedence.level ≤ inner.precedence.level

variable {outer inner : OperatorInfo}

/-- What is no looser than the limit on a right operand may be one. -/
theorem admitsRight_of_le (hlevel : outer.precedence.level ≤ 126)
    (h : ¬inner.precedence < outer.rightOperand) :
    outer.AdmitsRight inner := by
  have h : ¬inner.precedence.level < outer.rightOperand.level := h
  unfold rightOperand Precedence.tighter at h
  unfold AdmitsRight
  cases hassoc : outer.associativity <;> simp only [hassoc] at h ⊢ <;> omega

/-- **What is looser than the limit on the right operand** of an operation
may have the operation as its left operand, if the two group alike on one
level. -/
theorem admitsLeft_of_lt (hlevel : inner.precedence.level ≤ 126)
    (h : outer.precedence < inner.rightOperand)
    (hassoc : outer.precedence = inner.precedence →
      outer.associativity = inner.associativity) :
    outer.AdmitsLeft inner := by
  have h : outer.precedence.level < inner.rightOperand.level := h
  have hassoc (heq : outer.precedence.level = inner.precedence.level) :=
    hassoc (congrArg Precedence.mk heq)
  unfold rightOperand Precedence.tighter at h
  unfold AdmitsLeft
  cases hinner : inner.associativity <;> cases houter : outer.associativity
    <;> simp only [hinner, houter, reduceCtorEq, imp_false] at h hassoc ⊢
    <;> omega

end OperatorInfo

/-- **An expression grouped as a table says**: no operation in it has an
operand the table does not admit. -/
def Expression.Heeds (table : OperatorTable) : Expression → Prop
  | binary operator left right _ =>
    (∀ outer ∈ table.between? operator,
      (∀ inner ∈ table.operation? left, outer.AdmitsLeft inner)
        ∧ ∀ inner ∈ table.operation? right, outer.AdmitsRight inner)
      ∧ left.Heeds table ∧ right.Heeds table
  | _ => True

/-! ## Where a parse stands in a chain -/

/-- The kind of the token behind a name of a chain. -/
def Link.kindOf : List Link → TokenKind
  | [] => .eof
  | link :: _ => link.operator.tokenKind

/-- What lies behind that token. -/
def Link.behind : List Link → List Char
  | [] => []
  | link :: links => ' ' :: (link.name.text ++ textOf links)

/-- **Behind a name of a chain** there is the end or an operator, and
nothing else. -/
theorem Link.kindOf_ne {kind : TokenKind} (heof : kind ≠ .eof)
    (h : ∀ operator : BinaryOperator, operator.tokenKind ≠ kind)
    (links : List Link) : kindOf links ≠ kind := by
  cases links with
  | nil => exact heof.symm
  | cons link links => exact h link.operator

namespace State

variable {s : State} {ctx : Context} {x : Name} {links : List Link}

/-- Nothing has gone wrong, and no line break stands before the current
token. -/
structure Calm (s : State) : Prop where
  /-- No line break stands before the current token. -/
  newlineBefore_eq : s.newlineBefore = false
  /-- There are no problems. -/
  diagnostics_eq : s.diagnostics = #[]
  /-- The parse has not ended. -/
  aborted_eq : s.aborted = false

/-- **A parse in front of a name** with some links behind it. -/
structure AtName (s : State) (x : Name) (links : List Link) : Prop
    extends s.Calm where
  /-- The name is current. -/
  kind_eq : s.current.kind = .identifier
  /-- It is this one. -/
  text_eq : s.current.text = x.spelling
  /-- The links are behind it. -/
  rest_eq : s.scanner.rest = Link.textOf links
  /-- The scanner has just read a name. -/
  previous_eq : s.scanner.previous = some .identifier

/-- **A parse behind a name**, in front of some links. -/
structure AtLinks (s : State) (links : List Link) : Prop
    extends s.Calm where
  /-- The operator of the first of them is current, or the end. -/
  kind_eq : s.current.kind = Link.kindOf links
  /-- The rest of them is behind it. -/
  rest_eq : s.scanner.rest = Link.behind links

/-- The operator behind a name is met, or the end. -/
theorem AtName.meets (h : s.AtName x links) :
    ∃ text, s.scanner.Meets (Link.kindOf links) text (Link.behind links) := by
  have hrest := h.rest_eq
  cases links with
  | nil => exact ⟨_, Scanner.meets_end hrest⟩
  | cons link links =>
    exact ⟨_, Scanner.meets_operator hrest h.previous_eq⟩

/-- **Reading a token with nothing before it and nothing wrong** changes
the place of a parse and nothing else. -/
theorem bump_of_meets {kind : TokenKind} {text behind : List Char}
    (h : s.scanner.Meets kind text behind) (ctx : Context) :
    s.bump ctx = { s with
      scanner := s.scanner.nextSignificant.scanner
      current := s.scanner.nextSignificant.token
      newlineBefore := false
      consumedTo := s.current.span.stop
      taken := s.current :: s.taken } := by
  unfold bump reportToken
  dsimp only
  rw [h.extras_eq, h.error_eq]
  rfl

/-- A name is read. -/
theorem AtName.bump (h : s.AtName x links) (ctx : Context) :
    (s.bump ctx).AtLinks links := by
  obtain ⟨text, hmeets⟩ := h.meets
  rw [bump_of_meets hmeets]
  exact
    { newlineBefore_eq := rfl
      diagnostics_eq := h.diagnostics_eq
      aborted_eq := h.aborted_eq
      kind_eq := hmeets.kind_eq
      rest_eq := hmeets.rest_eq }

/-- An operator is read. -/
theorem AtLinks.bump {link : Link} (h : s.AtLinks (link :: links))
    (ctx : Context) :
    (s.bump ctx).AtName link.name links := by
  obtain ⟨hmeets, hprevious⟩ :=
    Scanner.meets_name (.inr h.rest_eq) (spaced_textOf links)
  rw [bump_of_meets hmeets]
  exact
    { newlineBefore_eq := rfl
      diagnostics_eq := h.diagnostics_eq
      aborted_eq := h.aborted_eq
      kind_eq := hmeets.kind_eq
      text_eq := hmeets.text_eq
      rest_eq := hmeets.rest_eq
      previous_eq := hprevious }

/-- **A parse in front of a name that begins no function**: neither a
function nor an arrow is behind it. -/
structure AtPlainName (s : State) : Prop where
  /-- A name is current. -/
  kind_eq : s.current.kind = .identifier
  /-- No function is behind it. -/
  function_ne : s.scanner.peek.kind ≠ .keyword .kwFunction
  /-- No parameters are behind it. -/
  lParen_ne : s.scanner.peek.kind ≠ .punctuator .lParen
  /-- It is no parameter. -/
  arrow_ne : s.scanner.peek.kind ≠ .punctuator .arrow
  /-- Nor is a name behind it one. -/
  param_ne (h : s.scanner.peek.kind = .identifier) :
    s.scanner.peekSecond.kind ≠ .punctuator .arrow

/-- How many levels have been entered does not matter. -/
theorem AtName.enter (h : s.AtName x links) : s.enter.AtName x links :=
  { h with }

theorem AtLinks.leave (h : s.AtLinks links) : s.leave.AtLinks links :=
  { h with }

end State

namespace Parse

open ScriptTree.Action

variable {g : Grammar} {s : State} {ctx : Context} {x : Name}
  {links : List Link}

/-! ## Names -/

/-- What a token behind a name cannot be. -/
theorem peek_kind_ne (h : s.AtName x links) (kind : TokenKind)
    (heof : kind ≠ .eof)
    (hkind : ∀ operator : BinaryOperator, operator.tokenKind ≠ kind) :
    s.scanner.peek.kind ≠ kind := by
  obtain ⟨_, hmeets⟩ := h.meets
  rw [show s.scanner.peek.kind = Link.kindOf links from hmeets.kind_eq]
  exact Link.kindOf_ne heof hkind links

/-- A name of a chain begins no function. -/
theorem atPlainName_of_atName (h : s.AtName x links) : s.AtPlainName where
  kind_eq := h.kind_eq
  function_ne := peek_kind_ne h (.keyword .kwFunction)
    (fun h => nomatch h) (fun o => by cases o <;> decide)
  lParen_ne := peek_kind_ne h (.punctuator .lParen)
    (fun h => nomatch h) (fun o => by cases o <;> decide)
  arrow_ne := peek_kind_ne h (.punctuator .arrow)
    (fun h => nomatch h) (fun o => by cases o <;> decide)
  param_ne hname := absurd hname (peek_kind_ne h .identifier
    (fun h => nomatch h) (fun o => by cases o <;> decide))

theorem asyncFunction?_run (h : s.AtPlainName) :
    asyncFunction? g ctx s = (.ok none, s) := by
  have hfunction := h.function_ne
  have hparam := h.param_ne
  have hparen := h.lParen_ne
  show (if _ then _ else _ : Parse (Option Expression)) ctx s = _
  rw [if_neg (by simpa [Token.isKeyword] using hfunction),
    if_neg (by simpa [Token.isPunctuator] using hparam),
    if_neg (by simp [Token.isPunctuator, hparen])]
  rfl

theorem nameOrArrow_run (h : s.AtPlainName) :
    nameOrArrow g ctx s
      = (.ok (.identifier ⟨s.current.text, s.current.span⟩), s.bump ctx) := by
  have harrow := h.arrow_ne
  have hname : identifier ctx s
      = (.ok ⟨s.current.text, s.current.span⟩, s.bump ctx) := by
    show (if _ then _ else _ : Parse Identifier) ctx s = _
    rw [if_pos (by simp [h.kind_eq])]
    rfl
  show (if _ then _ else _ : Parse Expression) ctx s = _
  rw [if_neg (by simp [Token.isPunctuator, harrow]), bind_run, hname]
  rfl

/-- **An operand without operators in front of it.** -/
theorem operand_eq_primary
    (h : ctx.table.beforeOperand? s.current.kind = none) :
    operand g ctx s = primary g ctx s := by
  unfold operand
  rw [bind_run, liftM_current_run]
  dsimp only
  rw [bind_run, read_run]
  dsimp only
  rw [h]

/-- **A name that begins no function is an operand.** -/
theorem operand_of_name (h : s.AtPlainName) :
    operand g ctx s
      = (.ok (.identifier ⟨s.current.text, s.current.span⟩), s.bump ctx) := by
  have hbefore : ctx.table.beforeOperand? s.current.kind = none := by
    rw [h.kind_eq]
    rfl
  rw [operand_eq_primary hbefore, primary, bind_run, liftM_current_run]
  dsimp only
  rw [h.kind_eq]
  show (if _ then _ else _ : Parse Expression) ctx s = _
  split
  · rw [bind_run, asyncFunction?_run h]
    exact nameOrArrow_run h
  · exact nameOrArrow_run h

/-- **A name of a chain is an operand.** -/
theorem operand_run (h : s.AtName x links) :
    operand g ctx s
      = (.ok (.identifier ⟨x.spelling, s.current.span⟩), s.bump ctx) := by
  rw [operand_of_name (atPlainName_of_atName h), h.text_eq]

/-! ## Operators -/

/-- **An operator between two operands is folded** onto the first of
them. -/
theorem applyOperator_run {left : Expression} {info : OperatorInfo}
    {operator : BinaryOperator} (hkind : s.current.kind = operator.tokenKind)
    (hinfo : info.fixity = .between) :
    applyOperator g left info ctx s
      = (do
          let right ← g.expression info.rightOperand
          pure (binaryOf operator left right)) ctx (s.bump ctx) := by
  have hadvance : (liftM advance : Parse Token) ctx s
      = (.ok s.current, s.bump ctx) := rfl
  unfold applyOperator
  rw [bind_run, hadvance]
  dsimp only
  rw [if_neg (by simp [hinfo]), hkind]
  cases operator <;> rfl

/-- **The operator that may be folded** is that of the next link, unless
it is looser than the limit. -/
theorem operatorAt?_atLinks {min : Precedence} (hin : ctx.allowIn = true)
    {link : Link} (h : s.AtLinks (link :: links)) {info : OperatorInfo}
    (hinfo : ctx.table.between? link.operator = some info) :
    (liftM (operatorAt? min) : Parse (Option OperatorInfo)) ctx s
      = (.ok (if info.precedence < min then none else some info), s) := by
  have hafter : ctx.table.afterOperand? s.current.kind = some info := by
    rw [show s.current.kind = link.operator.tokenKind from h.kind_eq]
    unfold OperatorTable.afterOperand?
    rw [show ctx.table.find? link.operator.tokenKind .between = some info
      from hinfo]
    rfl
  rw [liftM_operatorAt?_run]
  unfold State.operator?
  rw [h.newlineBefore_eq, hin, hafter]
  simp [Option.filter]

/-- Nothing is folded at the end. -/
theorem operatorAt?_atEnd {min : Precedence} (h : s.AtLinks []) :
    (liftM (operatorAt? min) : Parse (Option OperatorInfo)) ctx s
      = (.ok none, s) := by
  have hafter : ctx.table.afterOperand? s.current.kind = none := by
    rw [h.kind_eq]
    rfl
  rw [liftM_operatorAt?_run]
  unfold State.operator?
  rw [h.newlineBefore_eq, hafter]
  simp

end Parse

/-! ## What is read of a chain -/

/-- **An expression read from a name and some links**, with no operation
in it that is looser than a limit. -/
structure Expression.Spells (table : OperatorTable) (min : Precedence)
    (x : Name) (links : List Link) (e : Expression) : Prop where
  /-- In order it is the name and the links. -/
  inOrder_eq : e.inOrder = .name x.spelling :: Link.items links
  /-- It is grouped as the table says. -/
  heeds : e.Heeds table
  /-- It is a name or the operation of one of the links, which is not too
  loose. -/
  operation {info : OperatorInfo} (h : info ∈ table.operation? e) :
    ¬info.precedence < min
      ∧ ∃ link ∈ links, table.between? link.operator = some info

/-- **Whether what is left of a chain is too loose**: there is nothing
left, or its first operator is looser than a limit. -/
def OperatorTable.Looser (table : OperatorTable) (min : Precedence)
    (links : List Link) : Prop :=
  ∀ link ∈ links.head?, ∀ info ∈ table.between? link.operator,
    info.precedence < min

/-- **A production that reads an expression from a chain** takes as many
links as it may. -/
def Parse.ReadsLinks (p : Parse Expression) (ctx : Context) (s : State)
    (min : Precedence) (x : Name) (links : List Link) : Prop :=
  ∃ e t done rest, links = done ++ rest ∧ p ctx s = (.ok e, t)
    ∧ t.AtLinks rest ∧ e.Spells ctx.table min x done
    ∧ ctx.table.Looser min rest

/-- **A grammar that reads chains** of up to so many links. -/
def Grammar.ReadsChains (g : Grammar) (n : Nat) : Prop :=
  ∀ {ctx : Context} {s : State} {x : Name} {links : List Link}
    (min : Precedence), links.length ≤ n → n < ctx.turns →
    ctx.allowIn = true → ctx.table.Orders links → s.AtName x links →
    Parse.ReadsLinks (g.expression min) ctx s min x links

namespace OperatorTable.Orders

variable {table : OperatorTable} {links done rest : List Link}

/-- What a table says of a chain it says of its pieces. -/
theorem sub (h : table.Orders links) (hsub : ∀ link ∈ rest, link ∈ links) :
    table.Orders rest where
  exists_between hlink := h.exists_between (hsub _ hlink)
  associativity_eq hlink hother :=
    h.associativity_eq (hsub _ hlink) (hsub _ hother)

end OperatorTable.Orders

namespace Parse

variable {g : Grammar} {n : Nat} {ctx : Context} {x : Name}

/-- An operation whose right operand has been read with the limit for it
is grouped as the table says. -/
theorem spells_binaryOf {table : OperatorTable} {min : Precedence}
    {done more : List Link} {link : Link} {info : OperatorInfo}
    {left right : Expression}
    (hleft : left.Spells table min x done)
    (hinfo : table.between? link.operator = some info)
    (hlevel : info.precedence.level ≤ 126) (hmin : ¬info.precedence < min)
    (hadmits : ∀ inner ∈ table.operation? left, info.AdmitsLeft inner)
    (hright : right.Spells table info.rightOperand link.name more) :
    (binaryOf link.operator left right).Spells table min x
      (done ++ link :: more) where
  inOrder_eq := by
    show left.inOrder ++ .operator link.operator :: right.inOrder = _
    rw [hleft.inOrder_eq, hright.inOrder_eq]
    simp [Link.items]
  heeds := by
    refine ⟨fun outer houter => ?_, hleft.heeds, hright.heeds⟩
    obtain rfl : info = outer := Option.some.inj (hinfo.symm.trans houter)
    exact ⟨hadmits, fun inner hinner => OperatorInfo.admitsRight_of_le
      hlevel (hright.operation hinner).1⟩
  operation h := by
    obtain rfl : info = _ := Option.some.inj (hinfo.symm.trans h)
    exact ⟨hmin, link, by simp, hinfo⟩

/-- **The fold over a chain.** What has been read so far may be the left
operand of the next operator, whether that is folded or not. -/
theorem foldOperators_readsLinks (hg : ∀ m < n, g.ReadsChains m)
    (hturns : n < ctx.turns) (hin : ctx.allowIn = true) (min : Precedence)
    (turns : Nat) {s : State} {left : Expression} {done rest : List Link}
    (hrest : rest.length ≤ n) (hlt : rest.length < turns)
    (hleft : left.Spells ctx.table min x done)
    (horders : ctx.table.Orders (done ++ rest)) (hs : s.AtLinks rest)
    (hadmits : ∀ link ∈ rest.head?, ∀ info ∈ ctx.table.between? link.operator,
      ∀ inner ∈ ctx.table.operation? left, info.AdmitsLeft inner) :
    ∃ e t more behind, rest = more ++ behind
      ∧ foldOperators g min turns left ctx s = (.ok e, t)
      ∧ t.AtLinks behind ∧ e.Spells ctx.table min x (done ++ more)
      ∧ ctx.table.Looser min behind := by
  induction turns generalizing s left done rest with
  | zero => exact absurd hlt (Nat.not_lt_zero _)
  | succ turns ih =>
    cases rest with
    | nil =>
      refine ⟨left, s, [], [], rfl, ?_, hs, by rwa [List.append_nil],
        fun _ h => nomatch h⟩
      rw [foldOperators, bind_run, operatorAt?_atEnd hs]
      rfl
    | cons link rest =>
      obtain ⟨info, hinfo, hfixity, hlow, hhigh⟩ :=
        horders.exists_between
          (List.mem_append_right done List.mem_cons_self)
      by_cases hloose : info.precedence < min
      · refine ⟨left, s, [], link :: rest, rfl, ?_, hs,
          by rwa [List.append_nil], ?_⟩
        · rw [foldOperators, bind_run, operatorAt?_atLinks hin hs hinfo,
            if_pos hloose]
          rfl
        · intro other hother info' hinfo'
          obtain rfl := Option.some.inj hother
          obtain rfl := Option.some.inj (hinfo.symm.trans hinfo')
          exact hloose
      · -- The operator is folded, with what may be its right operand.
        have hlength : rest.length < n := hrest
        obtain ⟨right, t, more, behind, rfl, hright, ht, hspells, hlooser⟩ :=
          hg rest.length hlength info.rightOperand (Nat.le_refl _)
            (Nat.lt_trans hlength hturns) hin
            (horders.sub (fun other h => by simp [h])) (hs.bump ctx)
        have hbinary := spells_binaryOf hleft hinfo hhigh hloose
          (hadmits link rfl info hinfo) hspells
        have hsplit : done ++ link :: (more ++ behind)
            = (done ++ link :: more) ++ behind := by simp
        rw [hsplit] at horders
        have hadmits' : ∀ other ∈ behind.head?,
            ∀ outer ∈ ctx.table.between? other.operator,
            ∀ inner ∈ ctx.table.operation?
              (binaryOf link.operator left right), outer.AdmitsLeft inner := by
          intro other hother outer houter inner hinner
          obtain rfl : info = inner :=
            Option.some.inj (hinfo.symm.trans hinner)
          have hmem : other ∈ behind := List.mem_of_mem_head? hother
          exact OperatorInfo.admitsLeft_of_lt hhigh
            (hlooser other hother outer houter)
            (horders.associativity_eq (by simp [hmem]) (by simp) houter
              hinfo)
        obtain ⟨e, u, more', behind', rfl, he, hu, hspells', hlooser'⟩ :=
          ih (by simp at hrest; omega) (by simp at hlt; omega) hbinary
            horders ht hadmits'
        refine ⟨e, u, link :: (more ++ more'), behind', by simp, ?_, hu, ?_,
          hlooser'⟩
        · have hkind : s.current.kind = link.operator.tokenKind := hs.kind_eq
          rw [foldOperators, bind_run, operatorAt?_atLinks hin hs hinfo,
            if_neg hloose]
          dsimp only
          rw [bind_run, applyOperator_run hkind hfixity, bind_run, hright]
          exact he
        · simpa using hspells'

/-- **An expression of a chain.** -/
theorem expressionFrom_readsLinks (hg : ∀ m < n, g.ReadsChains m)
    (hturns : n < ctx.turns) (hin : ctx.allowIn = true) (min : Precedence)
    {s : State} {links : List Link} (hlength : links.length ≤ n)
    (horders : ctx.table.Orders links) (hs : s.AtName x links) :
    ReadsLinks (expressionFrom g min) ctx s min x links := by
  have hname : Expression.Spells ctx.table min x []
      (.identifier ⟨x.spelling, s.current.span⟩) :=
    { inOrder_eq := rfl
      heeds := trivial
      operation := fun h => nomatch h }
  obtain ⟨e, t, done, rest, rfl, he, ht, hspells, hlooser⟩ :=
    foldOperators_readsLinks hg hturns hin min ctx.turns hlength
      (Nat.lt_of_le_of_lt hlength hturns) hname horders (hs.bump ctx)
      (fun _ _ _ _ _ h => nomatch h)
  refine ⟨e, t, done, rest, rfl, ?_, ht, hspells, hlooser⟩
  unfold expressionFrom
  rw [bind_run, operand_run hs]
  exact he

end Parse

open Parse in
/-- **A grammar with more levels than a chain has links reads the
chain**: each operator but the first may be inside the right operand of
the one before it. -/
theorem Grammar.levels_readsChains {k n : Nat} (h : n < k) :
    (levels k).ReadsChains n := by
  induction k generalizing n with
  | zero => exact absurd h (Nat.not_lt_zero n)
  | succ k ih =>
    intro ctx s x links min hlength hturns hin horders hs
    obtain ⟨e, t, done, rest, rfl, he, ht, hspells, hlooser⟩ :=
      expressionFrom_readsLinks
        (fun m hm => ih (by omega)) hturns hin min hlength horders hs.enter
    refine ⟨e, t.leave, done, rest, rfl, ?_, ht.leave, hspells, hlooser⟩
    show guarded (fun ctx => expressionFrom (levels k) min ctx) ctx s = _
    rw [guarded_run, he]

end ScriptTree
