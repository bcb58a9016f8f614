import ScriptTree.Proofs.Account.Act
import ScriptTree.Proofs.Mirror.Arrow
import ScriptTree.Proofs.Token.Session

/-!
# The look-ahead for arrow functions

A parenthesis may open the parameters of an arrow function, and what it
opens is decided before anything behind it is read: a scanner goes ahead
and looks for names, commas, the closing parenthesis and the arrow. Later
the parameters are read from the same text, by the productions of the
grammar. So one language has two recognisers.

They agree. A scanner **leads** to a state if its next step finds the
current token of the state and stops where the state's own scanner does.
From there the two go along token by token: what the one looks at is what
the other one reads. Only that the loop of the grammar may take so many
turns and no more is a difference, and the text has fewer tokens than the
loop has turns.
-/

namespace ScriptTree

variable {ctx : Context} {s t : State} {x : Scanner}

/-! ## Steps ahead -/

namespace Scanner

theorem read_rest_length_le (x : Scanner) :
    x.read.2.rest.length ≤ x.rest.length := by
  unfold read
  split <;> simp only [remember_rest, take_rest, List.length_drop] <;>
    exact Nat.sub_le _ _

/-- No step brings back what was read. -/
theorem nextSignificantFrom_rest_length_le (x : Scanner)
    (extras : List Token) :
    (x.nextSignificantFrom extras).scanner.rest.length
      ≤ x.rest.length := by
  have hnext : ∀ x : Scanner, x.next.2.rest.length ≤ x.rest.length :=
    fun x => Nat.le_trans x.settle.read_rest_length_le
      x.settle_rest_length_le
  fun_induction nextSignificantFrom x extras with
  | case1 x extras step _ ih => exact Nat.le_trans ih (hnext x)
  | case2 x extras step _ => exact hnext x

theorem nextSignificant_rest_length_le (x : Scanner) :
    x.nextSignificant.scanner.rest.length ≤ x.rest.length :=
  nextSignificantFrom_rest_length_le x []

/-- **A scanner that leads to a state**: its next step is what the state
has come by. -/
structure Leads (x : Scanner) (s : State) : Prop where
  /-- The token it finds is current. -/
  token_eq : x.nextSignificant.token = s.current
  /-- It stops behind it. -/
  scanner_eq : x.nextSignificant.scanner = s.scanner

theorem leads_bump (ctx : Context) (s : State) :
    s.scanner.Leads (s.bump ctx) where
  token_eq := (s.bump_current ctx).symm
  scanner_eq := (s.bump_scanner ctx).symm

theorem Leads.bump (h : x.Leads s) (ctx : Context) :
    x.nextSignificant.scanner.Leads (s.bump ctx) :=
  h.scanner_eq ▸ leads_bump ctx s

theorem Leads.namesAndArrowFollow_eq (h : x.Leads s) :
    x.namesAndArrowFollow
      = if s.current.kind = .identifier then
          if s.scanner.peek.isPunctuator .comma then
            s.scanner.nextSignificant.scanner.namesAndArrowFollow
          else s.scanner.peek.isPunctuator .rParen
            && s.scanner.nextSignificant.scanner.arrowFollows
        else false := by
  rw [namesAndArrowFollow]
  dsimp only
  rw [h.token_eq, h.scanner_eq]
  rfl

theorem Leads.parameterListFollows_eq (h : x.Leads s) :
    x.parameterListFollows
      = if s.current.isPunctuator .rParen then s.scanner.arrowFollows
        else x.namesAndArrowFollow := by
  rw [parameterListFollows, h.token_eq, h.scanner_eq]

/-- What leads to a token has more left to read than is left behind it. -/
theorem Leads.rest_length_lt (h : x.Leads s)
    (heof : s.current.isEof = false) :
    s.scanner.rest.length < x.rest.length :=
  h.scanner_eq ▸ x.nextSignificant_rest_length_lt (h.token_eq ▸ heof)

end Scanner

namespace State

/-- The token so many tokens of the grammar ahead, and the scanner behind
it. -/
def ahead (s : State) : Nat → Token × Scanner
  | 0 => (s.current, s.scanner)
  | n + 1 =>
    let step := (s.ahead n).2.nextSignificant
    (step.token, step.scanner)

/-- **Whether the parameters of an arrow function stand so many tokens
ahead**, from the parenthesis that opens them to the arrow. -/
def arrowParametersFollow (s : State) (offset : Nat) : Bool :=
  (s.ahead offset).1.isPunctuator .lParen
    && (s.ahead offset).2.parameterListFollows

/-- At a parenthesis the look-ahead is that of `parenthesizedOrArrow`. -/
theorem arrowParametersFollow_zero
    (hopen : s.current.isPunctuator .lParen = true) :
    s.arrowParametersFollow 0 = s.scanner.parameterListFollows := by
  rw [arrowParametersFollow, ahead, hopen, Bool.true_and]

/-- One token ahead it is that of `asyncFunction?`. -/
theorem arrowParametersFollow_one (s : State) :
    s.arrowParametersFollow 1 = (s.scanner.peek.isPunctuator .lParen
      && s.scanner.nextSignificant.scanner.parameterListFollows) :=
  rfl

/-- What is ahead is current once as many tokens have been read. -/
theorem ahead_eq (ctx : Context) (s : State) (n : Nat) :
    s.ahead n = (((State.bump ctx)^[n] s).current,
      ((State.bump ctx)^[n] s).scanner) := by
  induction n with
  | zero => rfl
  | succ n ih =>
    rw [Function.iterate_succ_apply', bump_current, bump_scanner, ahead, ih]
    rfl

theorem arrowParametersFollow_eq (ctx : Context) (s : State) (n : Nat) :
    s.arrowParametersFollow n
      = ((State.bump ctx)^[n] s).arrowParametersFollow 0 := by
  unfold arrowParametersFollow
  rw [ahead_eq ctx s n]
  rfl

theorem iterate_bump_rest_length_le (ctx : Context) (s : State) (n : Nat) :
    ((State.bump ctx)^[n] s).scanner.rest.length
      ≤ s.scanner.rest.length := by
  induction n with
  | zero => exact Nat.le_refl _
  | succ n ih =>
    rw [Function.iterate_succ_apply', bump_scanner]
    exact Nat.le_trans (Scanner.nextSignificant_rest_length_le _) ih

/-- Behind the current token there are fewer characters left than a loop
may take turns. -/
theorem Reached.rest_length_lt {source : List Char} {options : Options}
    {table : OperatorTable}
    (hs : s.Reached (Context.ofSource source options table)) :
    s.scanner.rest.length
      < (Context.ofSource source options table).turns := by
  obtain ⟨front, text, hfaces⟩ := hs.good.faces
  have hsource := congrArg byteLength (hfaces.source_eq hs.good)
  rw [byteLength_append, byteLength_append] at hsource
  calc s.scanner.rest.length
      ≤ byteLength s.scanner.rest := length_le_byteLength _
    _ ≤ byteLength source := hsource ▸ by omega
    _ < byteLength source + 1 := Nat.lt_succ_self _

end State

namespace Parse

open ScriptTree.Action

/-! ## Names and what is behind them -/

/-- The loop over names, one turn at a time. -/
theorem parameterNamesFrom_run (turns : Nat) (found : List Identifier)
    (ctx : Context) (s : State) :
    parameterNamesFrom (turns + 1) found ctx s
      = if s.current.kind = .identifier then
          if (s.bump ctx).current.isPunctuator .comma then
            parameterNamesFrom turns (identifierOf s.current :: found) ctx
              ((s.bump ctx).bump ctx)
          else (.ok (identifierOf s.current :: found).reverse, s.bump ctx)
        else (.error (.ofToken "identifier" s.current), s) := by
  rw [show parameterNamesFrom (turns + 1) found = _ from
    parameterNamesLoop.run_succ turns found, bind_run,
    show parameterNamesLoop.turn found ctx s = _ from
      parameterNamesTurn_run found ctx s]
  by_cases hname : s.current.kind = .identifier
  · rw [if_pos hname, if_pos hname]
    by_cases hcomma : (s.bump ctx).current.isPunctuator .comma = true
    · rw [if_pos hcomma, if_pos hcomma]
      rfl
    · rw [if_neg hcomma, if_neg hcomma]
      rfl
  · rw [if_neg hname, if_neg hname]

/-- **Names with an arrow behind their parenthesis** are seen ahead exactly
if they can be read. -/
theorem namesAndArrowFollow_iff (hx : x.Leads s) {turns : Nat}
    (hturns : x.rest.length < turns) (found : List Identifier) :
    x.namesAndArrowFollow = true
      ↔ ∃ ids t, parameterNamesFrom turns found ctx s = (.ok ids, t)
        ∧ t.current.isPunctuator .rParen = true
        ∧ (t.bump ctx).current.isPunctuator .arrow = true := by
  -- Along the turns of the loop; each takes a name and a comma.
  induction turns generalizing s x found with
  | zero => exact absurd hturns (Nat.not_lt_zero _)
  | succ turns ih =>
    rw [parameterNamesFrom_run, hx.namesAndArrowFollow_eq]
    by_cases hname : s.current.kind = .identifier
    · rw [if_pos hname, if_pos hname, State.bump_current]
      by_cases hcomma : s.scanner.peek.isPunctuator .comma = true
      · rw [if_pos hcomma, if_pos hcomma]
        refine ih ?_ ?_ _
        · exact ((Scanner.leads_bump ctx s).bump ctx)
        · have hlt := hx.rest_length_lt (isEof_eq_false hname
            (fun h => nomatch h))
          have hle := s.scanner.nextSignificant_rest_length_le
          omega
      · rw [if_neg hcomma, if_neg hcomma, Bool.and_eq_true]
        constructor
        · rintro ⟨hclose, harrow⟩
          refine ⟨_, s.bump ctx, rfl, ?_, ?_⟩
          · rw [State.bump_current]
            exact hclose
          · rw [State.bump_current, State.bump_scanner]
            exact harrow
        · rintro ⟨ids, t, hrun, hclose, harrow⟩
          obtain rfl : s.bump ctx = t := congrArg Prod.snd hrun
          rw [State.bump_current] at hclose harrow
          rw [State.bump_scanner] at harrow
          exact ⟨hclose, harrow⟩
    · rw [if_neg hname, if_neg hname]
      constructor
      · intro h
        exact absurd h Bool.false_ne_true
      · rintro ⟨ids, t, hrun, _⟩
        exact nomatch congrArg Prod.fst hrun

/-- A mark and an answer behind it. -/
theorem closed_run (p : Punctuator) {α : Type} (a : α) (ctx : Context)
    (s : State) :
    (do discard (expectPunctuator p); return a : Parse α) ctx s
      = if s.current.isPunctuator p then (.ok a, s.bump ctx)
        else (.error (.ofToken (inQuotes p.spelling) s.current), s) := by
  have hrun := expectPunctuator_run p ctx s
  split at hrun
  · rw [bind_run, discard_run hrun, if_pos ‹_›]
    rfl
  · have hmap : (discard (expectPunctuator p) : Parse PUnit)
        = (fun _ => ⟨⟩) <$> expectPunctuator p := rfl
    rw [bind_run, hmap, map_eq_pure_bind, bind_run, hrun, if_neg ‹_›]

/-- **Parameters with an arrow behind them** are seen ahead exactly if they
can be read. -/
theorem parameterListFollows_iff (hx : x.Leads s)
    (hturns : x.rest.length < ctx.turns) :
    x.parameterListFollows = true
      ↔ ∃ ids t, parameterNames ctx s = (.ok ids, t)
        ∧ t.current.isPunctuator .arrow = true := by
  rw [hx.parameterListFollows_eq]
  by_cases hclose : s.current.isPunctuator .rParen = true
  · have hrun : parameterNames ctx s = (.ok [], s.bump ctx) := by
      show (ite (s.current.isPunctuator .rParen = true) _ _ : Parse _) ctx s
        = _
      rw [if_pos hclose, pure_bind]
      exact (closed_run ..).trans (if_pos hclose)
    rw [if_pos hclose, hrun]
    constructor
    · intro harrow
      exact ⟨[], s.bump ctx, rfl, by rwa [State.bump_current]⟩
    · rintro ⟨ids, t, heq, harrow⟩
      obtain rfl : s.bump ctx = t := congrArg Prod.snd heq
      rwa [State.bump_current] at harrow
  · have hrun : parameterNames ctx s
        = (parameterNamesFrom ctx.turns [] >>= fun params => do
            discard (expectPunctuator .rParen); return params : Parse _)
          ctx s := by
      show (ite (s.current.isPunctuator .rParen = true) _ _ : Parse _) ctx s
        = _
      rw [if_neg hclose]
      rfl
    rw [if_neg hclose, namesAndArrowFollow_iff hx hturns [], hrun]
    constructor
    · rintro ⟨ids, t, hnames, hclose, harrow⟩
      refine ⟨ids, t.bump ctx, ?_, harrow⟩
      rw [bind_run, hnames]
      exact (closed_run ..).trans (if_pos hclose)
    · rintro ⟨ids, u, hrun, harrow⟩
      obtain ⟨names, t, hnames, hrun⟩ := of_bind_run hrun
      have hrun := (closed_run ..).symm.trans hrun
      split at hrun
      · cases hrun
        exact ⟨ids, t, hnames, ‹_›, harrow⟩
      · exact nomatch congrArg Prod.fst hrun

/-! ## The whole list -/

theorem inBrackets_run {α : Type} (x : Parse α) (ctx : Context)
    (s : State) :
    inBrackets x ctx s = ((x ctx.inBrackets s.enter).1,
      (x ctx.inBrackets s.enter).2.leave) :=
  guarded_run _ ctx s

variable {g : Grammar}

/-- **The look-ahead from the parenthesis on**, where one more level may be
entered. -/
theorem arrowParametersFollow_zero_iff
    (hg : g.parameters = inBrackets parameterNames)
    (hturns : s.scanner.rest.length < ctx.turns) :
    s.arrowParametersFollow 0 = true
      ↔ ∃ params t, parameterList g ctx s = (.ok params, t)
        ∧ t.current.isPunctuator .arrow = true := by
  have hleads : s.scanner.Leads (s.bump ctx).enter :=
    ⟨(Scanner.leads_bump ctx s).token_eq,
      (Scanner.leads_bump ctx s).scanner_eq⟩
  have hnames : s.scanner.parameterListFollows = true
      ↔ ∃ params t, parameterNames ctx.inBrackets (s.bump ctx).enter
          = (.ok params, t)
        ∧ t.current.isPunctuator .arrow = true :=
    parameterListFollows_iff hleads hturns
  show (s.current.isPunctuator .lParen
    && s.scanner.parameterListFollows) = true ↔ _
  rw [Bool.and_eq_true, hnames, parameterList, hg]
  constructor
  · rintro ⟨hopen, params, t, hrun, harrow⟩
    refine ⟨params, t.leave, ?_, harrow⟩
    rw [bind_run, discard_run ((expectPunctuator_run ..).trans
      (if_pos hopen))]
    exact (inBrackets_run ..).trans (by rw [hrun])
  · rintro ⟨params, t, hrun, harrow⟩
    obtain ⟨_, u, hmark, hrun⟩ := of_bind_run hrun
    obtain ⟨_, hmark⟩ := of_discard_run hmark
    obtain ⟨hopen, rfl⟩ := of_expectPunctuator_run hmark
    rw [inBrackets_run] at hrun
    obtain ⟨hparams, rfl⟩ := Prod.mk.inj hrun
    exact ⟨hopen, params, _, Prod.ext hparams rfl, harrow⟩

/-- The arrow that was seen is read. -/
theorem expectArrow_run (harrow : t.current.isPunctuator .arrow = true) :
    expectPunctuator .arrow ctx t = (.ok t.current, t.bump ctx) :=
  (expectPunctuator_run ..).trans (if_pos harrow)

/-- Where parameters are seen behind the parenthesis, an arrow function is
read. -/
theorem parenthesizedOrArrow_run_parameters {params : List Identifier}
    (hseen : s.scanner.parameterListFollows = true)
    (hrun : parameterList g ctx s = (.ok params, t)) :
    parenthesizedOrArrow g ctx s
      = arrowFunction g false params s.here ctx t := by
  show (ite (s.scanner.parameterListFollows = true) _ _ : Parse _) ctx s = _
  rw [if_pos hseen, bind_run, hrun]
  rfl

/-- Where parameters are seen behind the word `async`, an arrow function is
read. -/
theorem asyncFunction?_run_parameters {params : List Identifier}
    (hopen : s.scanner.peek.isPunctuator .lParen = true)
    (hseen : s.scanner.nextSignificant.scanner.parameterListFollows = true)
    (hrun : parameterList g ctx (s.bump ctx) = (.ok params, t)) :
    asyncFunction? g ctx s
      = (some <$> arrowFunction g true params s.here) ctx t := by
  have hkind : s.scanner.peek.kind = .punctuator .lParen :=
    of_decide_eq_true hopen
  show (ite (s.scanner.peek.isKeyword .kwFunction = true) _ _ : Parse _) ctx
    s = _
  rw [if_neg (by simp [Token.isKeyword, hkind]),
    if_neg (by simp [hkind]), if_pos (by rw [hopen, hseen]; rfl),
    bind_run, discard_run (t := s.bump ctx) (a := s.current) rfl]
  dsimp only
  rw [bind_run, hrun]
  rfl

/-- **The look-ahead for arrow functions agrees with the grammar.** In any
state a parse can reach, however many tokens are read first, the
parameters of an arrow function are seen ahead exactly if they can be read
and have an arrow behind them. So no arrow function that was seen in a
parenthesis or behind the word `async` ever fails for its arrow. -/
theorem arrowParametersFollow_agrees {options : Options}
    {table : OperatorTable} {source : List Char}
    (hctx : (Context.ofSource source options table).Within ctx)
    (hs : s.Reached (Context.ofSource source options table)) :
    ∀ depth ∈ s.depth, depth < options.maxNestingDepth →
    let g := Grammar.levels (options.maxNestingDepth - depth)
    (∀ offset, s.arrowParametersFollow offset = true
      ↔ ∃ params t,
        parameterList g ctx ((State.bump ctx)^[offset] s)
          = (.ok params, t)
        ∧ t.current.isPunctuator .arrow = true)
    ∧ (s.arrowParametersFollow 0 = true → ∃ params t,
        parameterList g ctx s = (.ok params, t)
        ∧ parenthesizedOrArrow g ctx s
          = arrowFunction g false params s.here ctx t
        ∧ expectPunctuator .arrow ctx t = (.ok t.current, t.bump ctx))
    ∧ (s.arrowParametersFollow 1 = true → ∃ params t,
        parameterList g ctx (s.bump ctx) = (.ok params, t)
        ∧ asyncFunction? g ctx s
          = (some <$> arrowFunction g true params s.here) ctx t
        ∧ expectPunctuator .arrow ctx t = (.ok t.current, t.bump ctx)) := by
  intro depth _ hroom g
  have hg : g.parameters = inBrackets parameterNames := by
    obtain ⟨n, hn⟩ := Nat.exists_eq_add_of_lt hroom
    have hlevels : options.maxNestingDepth - depth = n + 1 := by omega
    show (Grammar.levels (options.maxNestingDepth - depth)).parameters = _
    rw [hlevels]
    rfl
  have hagrees : ∀ offset, s.arrowParametersFollow offset = true
      ↔ ∃ params t, parameterList g ctx ((State.bump ctx)^[offset] s)
          = (.ok params, t) ∧ t.current.isPunctuator .arrow = true := by
    intro offset
    rw [State.arrowParametersFollow_eq ctx]
    refine arrowParametersFollow_zero_iff hg (hctx.turns_eq ▸ ?_)
    exact Nat.lt_of_le_of_lt
      (State.iterate_bump_rest_length_le ctx s offset) hs.rest_length_lt
  refine ⟨hagrees, fun hseen => ?_, fun hseen => ?_⟩
  · obtain ⟨params, t, hrun, harrow⟩ := (hagrees 0).1 hseen
    have hopen := (Bool.and_eq_true_iff.1 hseen).1
    rw [State.arrowParametersFollow_zero hopen] at hseen
    exact ⟨params, t, hrun, parenthesizedOrArrow_run_parameters hseen hrun,
      expectArrow_run harrow⟩
  · obtain ⟨params, t, hrun, harrow⟩ := (hagrees 1).1 hseen
    rw [State.arrowParametersFollow_one, Bool.and_eq_true] at hseen
    exact ⟨params, t, hrun, asyncFunction?_run_parameters hseen.1 hseen.2 hrun,
      expectArrow_run harrow⟩

/-- Parameters behind the word `async`, with a comment behind them. -/
theorem arrowParametersFollow_agrees_async :
    let root := Context.ofSource "async (a, b) /* c */ => a".toList .standard
      .standard
    let s := State.initial root
    ∃ params t, parameterList (Grammar.levels 128) root (s.bump root)
        = (.ok params, t)
      ∧ asyncFunction? (Grammar.levels 128) root s
        = (some <$> arrowFunction (Grammar.levels 128) true params s.here)
          root t
      ∧ expectPunctuator .arrow root t = (.ok t.current, t.bump root) :=
  (arrowParametersFollow_agrees (.refl _) .refl 0 (by decide +kernel)
    (by decide)).2.2 (by decide +kernel)

end Parse

end ScriptTree
