import ScriptTree.Proofs.Chain.Climb
import ScriptTree.Parse.Outcome

/-!
# A script that is a chain

A script of nothing but a chain is one statement, the expression of the
chain as the table groups it, and there is nothing wrong with it
(`parseWith_chain`). It takes two levels more than the chain has links,
one for the statement and one for the expression that begins with the
first name.
-/

namespace ScriptTree

open Parse

variable {g : Grammar} {ctx : Context} {s t : State} {x : Name}
  {links : List Link} {e : Expression}

/-- What is made of names and operations is no error, and no function or
class. -/
theorem Expression.Spells.plain {table : OperatorTable} {min : Precedence}
    (h : e.Spells table min x links) :
    e.isError = false ∧ e.isDeclarationLike = false := by
  have horder := h.inOrder_eq
  cases e with
  | identifier id => exact ⟨rfl, rfl⟩
  | binary operator left right span => exact ⟨rfl, rfl⟩
  | _ => exact nomatch horder

namespace State

theorem AtLinks.isEof (h : s.AtLinks []) : s.current.isEof = true :=
  decide_eq_true h.kind_eq

theorem AtName.isEof (h : s.AtName x links) : s.current.isEof = false := by
  unfold Token.isEof
  rw [h.kind_eq]
  rfl

end State

/-- An action goes on from where its first step leaves the parse. -/
theorem Action.bind_run {α β : Type} {x : Action α} {a : α}
    {f : α → Action β} (h : x ctx s = (a, t)) :
    (x >>= f) ctx s = f a ctx t := by
  show f (x ctx s).1 ctx (x ctx s).2 = _
  rw [h]

namespace Parse

/-- **The end of the text** is the end of a statement, where one may do
without a terminator. -/
theorem terminator_run (hline : s.newlineBefore = false)
    (heof : s.current.kind = .eof)
    (htrailing : ctx.options.allowTrailingStatement = true) :
    terminator true ctx s = ((), s) := by
  have heat : Action.eat .semicolon ctx s = (false, s) := by
    rw [Action.eat_run,
      if_neg (by simp [Token.isPunctuator, heof])]
  show (if (Action.eat .semicolon ctx s).1 = true then _ else _
    : Action Unit) ctx (Action.eat .semicolon ctx s).2 = _
  rw [heat, if_neg Bool.false_ne_true]
  show (if s.newlineBefore = true then _ else _ : Action Unit) ctx s = _
  rw [hline, if_neg Bool.false_ne_true]
  show (if (true && s.atListEnd ctx && ctx.options.allowTrailingStatement)
    = true then _ else _ : Action Unit) ctx s = _
  rw [if_pos (by simp [State.atListEnd, Token.isEof, heof, htrailing])]
  rfl

/-- **An expression up to the end of the text** is a statement. -/
theorem expressionStatement_run (he : expression g ctx s = (.ok e, t))
    (herror : e.isError = false) (hlike : e.isDeclarationLike = false)
    (hline : t.newlineBefore = false) (heof : t.current.kind = .eof)
    (htrailing : ctx.options.allowTrailingStatement = true) :
    expressionStatement g ctx s
      = (.ok (.expression e (t.spanFrom s.current.span.start)), t) := by
  have hhere : (liftM Action.here : Parse Nat) ctx s
      = (.ok s.current.span.start, s) := rfl
  have htolerant : tolerant .expressionStatement (expression g) ctx s
      = (.ok e, t) := by
    rw [tolerant_run, he]
  have hend : (liftM (expressionEnd e) : Parse Unit) ctx t
      = (.ok (), t) := by
    have hrun : expressionEnd e ctx t = ((), t) := by
      show (if _ then _ else _ : Action Unit) ctx t = _
      rw [herror, hlike, if_neg Bool.false_ne_true,
        if_neg Bool.false_ne_true]
      exact terminator_run hline heof htrailing
    show (Except.ok (expressionEnd e ctx t).1, (expressionEnd e ctx t).2) = _
    rw [hrun]
  unfold expressionStatement
  rw [bind_run, hhere]
  dsimp only
  rw [bind_run, htolerant]
  dsimp only
  rw [bind_run, hend]
  rfl

/-- **A list of one statement**, up to the end of the text. -/
theorem statementList_run {y : Statement}
    (haborted : s.aborted = false) (hs : s.current.isEof = false)
    (hrun : statement g (ctx.inList .eof) s = (.ok y, t))
    (ht : t.current.isEof = true) (hturns : 1 < ctx.turns) :
    statementList g .eof ctx s = ([y], t) := by
  obtain ⟨turns, hctx⟩ : ∃ turns, ctx.turns = turns + 2 :=
    ⟨ctx.turns - 2, by omega⟩
  let inner := ctx.inList .eof
  have hstart : ¬(s.aborted || s.atListEnd inner) = true := by
    simp [haborted, State.atListEnd, hs, inner, Context.inList]
  have hend : (t.aborted || t.atListEnd inner) = true := by
    simp [State.atListEnd, ht]
  show statementsFrom g ctx.turns [] inner s = _
  rw [hctx]
  show (if (s.aborted || s.atListEnd inner) = true then _ else _
    : Action (List Statement)) inner s = _
  rw [if_neg hstart]
  have hattempt : Action.attempt (statement g) inner s = (.ok y, t) := hrun
  have hhere : Action.here inner s = (s.here, s) := rfl
  rw [Action.bind_run hhere, Action.bind_run hattempt]
  show (if (t.aborted || t.atListEnd inner) = true then _ else _
    : Action (List Statement)) inner t = _
  rw [if_pos hend]
  rfl

/-- A statement is on record before its level is entered. -/
theorem statement_levels_succ (k : Nat) (ctx : Context) (s : State) :
    statement (Grammar.levels (k + 1)) ctx s
      = guarded (fun ctx => statementFrom (Grammar.levels k) ctx) ctx
        { s with
          events := s.events.push
            (.statement s.current.span.start s.current.kind) } := rfl

/-- **A statement that begins with anything else** is an expression. -/
theorem statementFrom_run (hword : ∀ k, s.current.kind ≠ .keyword k)
    (hbrace : s.current.kind ≠ .punctuator .lBrace)
    (hsemicolon : s.current.kind ≠ .punctuator .semicolon) :
    statementFrom g ctx s = expressionStatement g ctx s := by
  unfold statementFrom
  rw [bind_run, liftM_current_run]
  dsimp only
  cases hkind : s.current.kind with
  | keyword k => exact absurd hkind (hword k)
  | punctuator p =>
    cases p with
    | lBrace => exact absurd hkind hbrace
    | semicolon => exact absurd hkind hsemicolon
    | _ => rfl
  | _ => rfl

/-- **A chain is a statement.** -/
theorem statement_readsLinks (ctx : Context) {n k : Nat} (hk : n + 2 ≤ k)
    (hlength : links.length ≤ n) (hturns : n < ctx.turns)
    (hin : ctx.allowIn = true)
    (htrailing : ctx.options.allowTrailingStatement = true)
    (horders : ctx.table.Orders links) (hs : s.AtName x links) :
    ∃ e span t, statement (Grammar.levels k) ctx s
        = (.ok (.expression e span), t)
      ∧ t.AtLinks [] ∧ e.Spells ctx.table .lowest x links := by
  obtain ⟨k, rfl⟩ : ∃ m, k = m + 1 := ⟨k - 1, by omega⟩
  let event := Event.statement s.current.span.start s.current.kind
  let u : State := { s with events := s.events.push event }
  have hu : u.enter.AtName x links := { hs with }
  obtain ⟨e, t, done, rest, rfl, he, ht, hspells, hlooser⟩ :=
    Grammar.levels_readsChains (k := k) (n := n) (by omega) .lowest hlength
      hturns hin horders hu
  -- Nothing of the chain is looser than the lowest level.
  have hrest : rest = [] := by
    cases rest with
    | nil => rfl
    | cons link rest =>
      obtain ⟨info, hinfo, _, hlow, _⟩ :=
        horders.exists_between
          (List.mem_append_right done List.mem_cons_self)
      have hlt : info.precedence.level < -1 :=
        hlooser link rfl info hinfo
      omega
  subst hrest
  rw [List.append_nil]
  refine ⟨e, t.spanFrom u.enter.current.span.start, t.leave, ?_, ht.leave,
    hspells⟩
  have hkind : u.enter.current.kind = .identifier := hu.kind_eq
  rw [statement_levels_succ, guarded_run,
    statementFrom_run (hkind ▸ nofun) (hkind ▸ nofun) (hkind ▸ nofun),
    expressionStatement_run he hspells.plain.1 hspells.plain.2
      ht.newlineBefore_eq ht.kind_eq htrailing]

/-- **A list of one chain** has one statement. -/
theorem statementList_readsLinks (ctx : Context) {n k : Nat} (hk : n + 2 ≤ k)
    (hlength : links.length ≤ n) (hturns : n + 1 < ctx.turns)
    (htrailing : ctx.options.allowTrailingStatement = true)
    (horders : ctx.table.Orders links) (hs : s.AtName x links) :
    ∃ e span t, statementList (Grammar.levels k) .eof ctx s
        = ([.expression e span], t)
      ∧ t.Calm ∧ e.Spells ctx.table .lowest x links := by
  obtain ⟨e, span, t, he, ht, hspells⟩ := statement_readsLinks
    (ctx.inList .eof) hk hlength (Nat.lt_of_succ_lt hturns) rfl htrailing
    horders hs
  exact ⟨e, span, t, statementList_run hs.aborted_eq hs.isEof he ht.isEof
    (by omega), ht.toCalm, hspells⟩

end Parse

/-! ## The script -/

theorem Link.length_le_textOf (links : List Link) :
    links.length ≤ (textOf links).length := by
  induction links with
  | nil => exact Nat.le_refl 0
  | cons link links ih =>
    simp only [textOf, List.length_cons, List.length_append]
    omega

/-- **What parsing answers with** for a script that is not empty. -/
theorem parseWith_of_statementList {source : List Char} {options : Options}
    {table : OperatorTable} {body : List Statement}
    (h : (State.initial (.ofSource source options table)).current.isEof
      = false)
    (hrun : statementList (Grammar.levels options.maxNestingDepth) .eof
      (.ofSource source options table)
      (State.initial (.ofSource source options table)) = (body, t)) :
    (parseWith options table source).program.body = body
      ∧ (parseWith options table source).diagnostics
        = t.diagnostics.toList := by
  have hscript : runScript source options table = (body, t) := by
    show ((do
        let body ← statementList (Grammar.levels options.maxNestingDepth) .eof
        if (State.initial (.ofSource source options table)).current.isEof then
          reportEmpty
        return body) : Action (List Statement)) _ _ = _
    rw [h]
    exact hrun
  unfold parseWith
  rw [hscript]
  exact ⟨rfl, rfl⟩

/-- The first name of a chain is in front of its script. -/
theorem Chain.initial_atName (chain : Chain) (options : Options)
    (table : OperatorTable) :
    (State.initial (.ofSource chain.text options table)).AtName chain.first
      chain.links := by
  let blank := State.blank chain.text
  have hbefore : blank.scanner.Before
      (chain.first.text ++ Link.textOf chain.links) := .inl rfl
  obtain ⟨hmeets, hprevious⟩ :=
    Scanner.meets_name hbefore (spaced_textOf chain.links)
  show (blank.bump _).AtName chain.first chain.links
  rw [State.bump_of_meets hmeets]
  exact
    { newlineBefore_eq := rfl
      diagnostics_eq := rfl
      aborted_eq := rfl
      kind_eq := hmeets.kind_eq
      text_eq := hmeets.text_eq
      rest_eq := hmeets.rest_eq
      previous_eq := hprevious }

/-- **A chain is parsed** without a problem into one expression, which is
the chain as the table would have it. -/
theorem parseWith_spells {options : Options} {table : OperatorTable}
    {chain : Chain} (horders : table.Orders chain.links)
    (hdepth : chain.links.length + 2 ≤ options.maxNestingDepth)
    (htrailing : options.allowTrailingStatement = true) :
    (parseWith options table chain.text).diagnostics = []
      ∧ ∃ e span, (parseWith options table chain.text).program.body
          = [.expression e span]
        ∧ e.Spells table .lowest chain.first chain.links := by
  let ctx := Context.ofSource chain.text options table
  have hs : (State.initial ctx).AtName chain.first chain.links :=
    chain.initial_atName options table
  have hturns : chain.links.length + 1 < ctx.turns := by
    have hlinks := Link.length_le_textOf chain.links
    have hbytes := length_le_byteLength chain.text
    have htext : chain.text.length = chain.first.tail.length + 1
        + (Link.textOf chain.links).length := by
      simp only [Chain.text, Name.text, List.length_append,
        List.length_cons]
    show _ < byteLength chain.text + 1
    omega
  obtain ⟨e, span, t, hrun, hcalm, hspells⟩ := Parse.statementList_readsLinks
    ctx hdepth (Nat.le_refl _) hturns htrailing horders hs
  obtain ⟨hbody, hdiagnostics⟩ := parseWith_of_statementList hs.isEof hrun
  rw [hdiagnostics, hcalm.diagnostics_eq]
  exact ⟨rfl, e, span, hbody, hspells⟩

/-- **A table is obeyed.** Where a table says enough of the operators of a
chain, and there are levels enough, the chain is parsed without a problem
into one expression, which in order is the chain and is grouped as the
table says. -/
theorem parseWith_chain {options : Options} {table : OperatorTable}
    {chain : Chain} (horders : table.Orders chain.links)
    (hdepth : chain.links.length + 2 ≤ options.maxNestingDepth)
    (htrailing : options.allowTrailingStatement = true) :
    (parseWith options table chain.text).diagnostics = []
      ∧ ∃ e span, (parseWith options table chain.text).program.body
          = [.expression e span]
        ∧ e.inOrder = chain.items ∧ e.Heeds table := by
  obtain ⟨hquiet, e, span, hbody, hspells⟩ :=
    parseWith_spells horders hdepth htrailing
  exact ⟨hquiet, e, span, hbody, hspells.inOrder_eq, hspells.heeds⟩

/-- Products, which group to the left, are as loose as may be. -/
def OperatorInfo.loose : OperatorInfo := ⟨⟨-1⟩, .left, .between⟩

/-- Sums, which group to the right, are as tight as may be. -/
def OperatorInfo.tight : OperatorInfo := ⟨⟨126⟩, .right, .between⟩

/-- A table in which sums are inside products. -/
def OperatorTable.sumsFirst : OperatorTable :=
  ⟨[(.punctuator .star .between, .loose),
    (.punctuator .plus .between, .tight)]⟩

/-- A name of one letter. -/
def Name.ofLetter (c : Char) (h : isWordStart c = true
    ∧ Keyword.ofSpelling? (String.ofList [c]) = none) : Name :=
  ⟨c, [], h.1, List.forall_mem_nil _, h.2⟩

/-- Products and sums side by side, among names of which one is `async`. -/
def Chain.mixed : Chain :=
  let x : Name := ⟨'x', [], by decide, nofun, by decide⟩
  let y : Name := ⟨'y', [], by decide, nofun, by decide⟩
  let async : Name := ⟨'a', "sync".toList, by decide,
    List.all_eq_true.mp (by decide), by decide⟩
  ⟨x, [⟨.mul, async⟩, ⟨.add, y⟩, ⟨.add, x⟩, ⟨.mul, y⟩]⟩

/-- The table says enough of that chain. -/
theorem OperatorTable.sumsFirst_orders :
    sumsFirst.Orders Chain.mixed.links := by
  have hmul : sumsFirst.between? .mul = some .loose := rfl
  have hadd : sumsFirst.between? .add = some .tight := rfl
  have hcases {link : Link} (h : link ∈ Chain.mixed.links) :
      sumsFirst.between? link.operator = some .loose
        ∨ sumsFirst.between? link.operator = some .tight := by
    simp only [Chain.mixed, List.mem_cons, List.not_mem_nil, or_false] at h
    rcases h with rfl | rfl | rfl | rfl
    · exact .inl hmul
    · exact .inr hadd
    · exact .inr hadd
    · exact .inl hmul
  constructor
  · intro link h
    rcases hcases h with h | h <;> exact ⟨_, h, by decide⟩
  · intro link other h h' info info' hinfo hinfo' heq
    rcases hcases h with h | h <;> rcases hcases h' with h' | h'
      <;> cases h.symm.trans hinfo <;> cases h'.symm.trans hinfo'
    · rfl
    · exact absurd heq (by decide)
    · exact absurd heq (by decide)
    · rfl

/-- Products and sums by a table of one's own. -/
theorem parseWith_chain_sumsFirst :
    (OperatorTable.sumsFirst.Orders Chain.mixed.links
      ∧ Chain.mixed.links.length + 2 ≤ Options.standard.maxNestingDepth
      ∧ Options.standard.allowTrailingStatement = true)
      ∧ (parseWith .standard .sumsFirst Chain.mixed.text).diagnostics = []
      ∧ ∃ e span,
        (parseWith .standard .sumsFirst Chain.mixed.text).program.body
          = [.expression e span]
        ∧ e.inOrder = Chain.mixed.items ∧ e.Heeds .sumsFirst :=
  ⟨⟨OperatorTable.sumsFirst_orders, by decide, rfl⟩,
    parseWith_chain OperatorTable.sumsFirst_orders (by decide) rfl⟩

end ScriptTree
