import ScriptTree.Parse.Operand
import ScriptTree.Proofs.Mirror.Callable

/-!
# Arrow functions in both texts

Whether a name or a parenthesis opens an arrow function shows only in the
arrow, which may be any number of tokens away. If it is not there in the
first text it is not there in the other one, whose tokens are the same as
far as there are any (`Mirror.Lawful.next`). If it is, everything up to
the arrow is read, and the same is read in the other text; so it is enough
to know that what is read as parameters would have been seen to be some
(`parameterNames_follows`).
-/

namespace ScriptTree

variable {M : Mirror} {E : State → Prop} {H B : Prop} {root ctx : Context}
  {s s' t t' u : State} {α β : Type} {x x' : Scanner}

/-! ## What scanners see -/

namespace Scanner

variable (x : Scanner)

theorem namesAndArrowFollow_of_comma
    (hname : x.peek.kind = .identifier)
    (hcomma : x.nextSignificant.scanner.peek.isPunctuator .comma = true)
    (h : x.nextSignificant.scanner.nextSignificant.scanner.namesAndArrowFollow
      = true) :
    x.namesAndArrowFollow = true := by
  rw [namesAndArrowFollow]
  exact (if_pos hname).trans ((if_pos hcomma).trans h)

theorem namesAndArrowFollow_of_close
    (hname : x.peek.kind = .identifier)
    (hclose : x.nextSignificant.scanner.peek.isPunctuator .rParen = true)
    (h : x.nextSignificant.scanner.nextSignificant.scanner.arrowFollows
      = true) :
    x.namesAndArrowFollow = true := by
  have hcomma :
      ¬x.nextSignificant.scanner.peek.isPunctuator .comma = true := by
    rw [Token.isPunctuator, of_decide_eq_true hclose]
    decide
  rw [namesAndArrowFollow]
  exact (if_pos hname).trans ((if_neg hcomma).trans
    (Bool.and_eq_true_iff.2 ⟨hclose, h⟩))

theorem parameterListFollows_of_close
    (hclose : x.peek.isPunctuator .rParen = true)
    (h : x.nextSignificant.scanner.arrowFollows = true) :
    x.parameterListFollows = true :=
  (if_pos hclose).trans h

theorem peekSecond_eq {kind : TokenKind} (hkind : x.peek.kind = kind)
    (heof : kind ≠ .eof) :
    x.peekSecond = x.nextSignificant.scanner.peek :=
  if_neg (Bool.eq_false_iff.1 (Action.isEof_eq_false hkind heof))

theorem parameterListFollows_of_names
    (h : x.namesAndArrowFollow = true) : x.parameterListFollows = true := by
  have hclose : ¬x.peek.isPunctuator .rParen = true := by
    intro hclose
    rw [namesAndArrowFollow] at h
    dsimp only at h
    split at h
    · rename_i hname
      rw [Token.isPunctuator, show x.peek.kind = _ from hname] at hclose
      exact absurd hclose (by decide)
    · exact absurd h Bool.false_ne_true
  exact (if_neg hclose).trans h

end Scanner

/-! ## What is not seen -/

namespace Mirror

variable [M.Lawful]

/-- **What the scanner of the other text finds** the one of the first text
finds too. -/
theorem Lawful.next_of (h : M.Twin x x') {kind : TokenKind}
    (hkind : x'.peek.kind = kind) (heof : kind ≠ .eof)
    (hslash : kind ≠ .punctuator .slash)
    (hslashEq : kind ≠ .punctuator .slashEq) :
    x.peek.kind = kind
      ∧ M.Twin x.nextSignificant.scanner x'.nextSignificant.scanner := by
  rcases Lawful.next h with ⟨hpeek, hnext⟩ | hend
  · have hsame : x.peek.kind = kind := by
      rw [← hkind, hpeek]
      rfl
    exact ⟨hsame, hnext (Parse.isSlash_eq_false hsame hslash hslashEq)
      (Action.isEof_eq_false hsame heof)⟩
  · rw [Action.isEof_eq_false hkind heof] at hend
    exact nomatch hend

theorem arrowFollows_of (h : M.Twin x x') (harrow : x'.arrowFollows = true) :
    x.arrowFollows = true :=
  decide_eq_true (Lawful.next_of h (of_decide_eq_true harrow)
    (fun h => nomatch h) (fun h => nomatch h) (fun h => nomatch h)).1

theorem namesAndArrowFollow_of (h : M.Twin x x')
    (hnames : x'.namesAndArrowFollow = true) :
    x.namesAndArrowFollow = true := by
  fun_induction Scanner.namesAndArrowFollow x' generalizing x with
  | case1 _ _ hname _ hcomma =>
    rename_i ih
    obtain ⟨hname, h⟩ := Lawful.next_of h hname (fun h => nomatch h)
      (fun h => nomatch h) (fun h => nomatch h)
    obtain ⟨hcomma, h⟩ := Lawful.next_of h (of_decide_eq_true hcomma)
      (fun h => nomatch h) (fun h => nomatch h) (fun h => nomatch h)
    exact x.namesAndArrowFollow_of_comma hname (decide_eq_true hcomma)
      (ih h hnames)
  | case2 _ _ hname _ =>
    obtain ⟨hname, h⟩ := Lawful.next_of h hname (fun h => nomatch h)
      (fun h => nomatch h) (fun h => nomatch h)
    rw [Bool.and_eq_true] at hnames
    obtain ⟨hclose, h⟩ := Lawful.next_of h (of_decide_eq_true hnames.1)
      (fun h => nomatch h) (fun h => nomatch h) (fun h => nomatch h)
    exact x.namesAndArrowFollow_of_close hname (decide_eq_true hclose)
      (arrowFollows_of h hnames.2)
  | case3 => exact nomatch hnames

theorem parameterListFollows_of (h : M.Twin x x')
    (hlist : x'.parameterListFollows = true) :
    x.parameterListFollows = true := by
  unfold Scanner.parameterListFollows at hlist
  dsimp only at hlist
  split at hlist
  · rename_i hclose
    obtain ⟨hclose, h⟩ := Lawful.next_of h (of_decide_eq_true hclose)
      (fun h => nomatch h) (fun h => nomatch h) (fun h => nomatch h)
    exact x.parameterListFollows_of_close (decide_eq_true hclose)
      (arrowFollows_of h hlist)
  · exact x.parameterListFollows_of_names (namesAndArrowFollow_of h hlist)

end Mirror

namespace Parse

open ScriptTree.Action Mirror

/-! ## What is read -/

/-- **What a turn reads**: a name, and a comma if there is one. -/
theorem parameterNamesTurn_run (found : List Identifier) (ctx : Context)
    (s : State) :
    parameterNamesTurn found ctx s
      = if s.current.kind = .identifier then
          if (s.bump ctx).current.isPunctuator .comma then
            (.ok (.again (identifierOf s.current :: found)),
              (s.bump ctx).bump ctx)
          else
            (.ok (.done (identifierOf s.current :: found).reverse),
              s.bump ctx)
        else (.error (.ofToken "identifier" s.current), s) := by
  unfold parameterNamesTurn
  rw [bind_run]
  by_cases hkind : s.current.kind = .identifier
  · have hid : identifier ctx s
        = (.ok (identifierOf s.current), s.bump ctx) := by
      show (ite _ _ _ : Parse _) ctx s = _
      rw [if_pos (decide_eq_true hkind)]
      rfl
    rw [hid, if_pos hkind]
    show (ite ((eat .comma ctx (s.bump ctx)).1 = true) _ _ : Parse _) ctx
      (eat .comma ctx (s.bump ctx)).2 = _
    rw [eat_run]
    split <;> rfl
  · have hid : identifier ctx s
        = (.error (.ofToken "identifier" s.current), s) := by
      show (ite _ _ _ : Parse _) ctx s = _
      rw [if_neg (by simpa using hkind)]
      rfl
    rw [hid, if_neg hkind]

/-- **Names that are read up to a parenthesis with an arrow behind it** are
seen as such from in front of them. -/
theorem namesAndArrowFollow_of_comes {found ids : List Identifier}
    (h : parameterNamesLoop.Comes ctx found s (.ok ids, t))
    (hclose : t.current.isPunctuator .rParen = true)
    (harrow : (t.bump ctx).current.isPunctuator .arrow = true)
    (htoken : x.nextSignificant.token = s.current)
    (hscanner : x.nextSignificant.scanner = s.scanner) :
    x.namesAndArrowFollow = true := by
  generalize hr : (Except.ok ids, t) = r at h
  induction h generalizing x with
  | @again found found' s u r hturn rest ih =>
    subst hr
    have hturn : parameterNamesTurn found ctx s = _ := hturn
    rw [parameterNamesTurn_run] at hturn
    split at hturn
    · rename_i hname
      split at hturn
      · rename_i hcomma
        cases hturn
        rw [State.bump_current, ← hscanner] at hcomma
        refine x.namesAndArrowFollow_of_comma ?_ hcomma (ih ?_ ?_ rfl)
        · rw [Scanner.peek, htoken, hname]
        · rw [State.bump_current, State.bump_scanner, hscanner]
          rfl
        · rw [State.bump_scanner, State.bump_scanner, hscanner]
      · exact nomatch congrArg Prod.fst hturn
    · exact nomatch congrArg Prod.fst hturn
  | @done found ids' s u hturn =>
    cases hr
    have hturn : parameterNamesTurn found ctx s = _ := hturn
    rw [parameterNamesTurn_run] at hturn
    split at hturn
    · rename_i hname
      split at hturn
      · exact nomatch congrArg Prod.fst hturn
      · cases hturn
        rw [State.bump_current, ← hscanner] at hclose
        refine x.namesAndArrowFollow_of_close ?_ hclose ?_
        · rw [Scanner.peek, htoken, hname]
        · rw [State.bump_current, State.bump_scanner, ← hscanner] at harrow
          exact harrow
    · exact nomatch congrArg Prod.fst hturn
  | failure => exact nomatch hr

/-- A mark that has been asked for was there. -/
theorem of_expectPunctuator_run {p : Punctuator} {token : Token}
    (h : expectPunctuator p ctx s = (.ok token, t)) :
    s.current.isPunctuator p = true ∧ t = s.bump ctx := by
  rw [expectPunctuator_run] at h
  split at h
  · cases h
    exact ⟨‹_›, rfl⟩
  · exact nomatch congrArg Prod.fst h

/-- A word that has been asked for was there. -/
theorem of_expectKeyword_run {k : Keyword} {token : Token}
    (h : expectKeyword k ctx s = (.ok token, t)) :
    s.current.isKeyword k = true := by
  have h : (ite (s.current.isKeyword k = true) _ _ : Parse _) ctx s = _ := h
  split at h
  · assumption
  · exact nomatch congrArg Prod.fst h

/-- A name that has been read was there. -/
theorem of_identifier_run {id : Identifier}
    (h : identifier ctx s = (.ok id, t)) :
    s.current.kind = .identifier ∧ t = s.bump ctx := by
  have h : (ite (decide (s.current.kind = .identifier) = true) _ _ :
    Parse _) ctx s = _ := h
  split at h
  · rename_i hkind
    cases h
    exact ⟨of_decide_eq_true hkind, rfl⟩
  · exact nomatch congrArg Prod.fst h

/-- **Parameters with an arrow behind them** are seen as such from in front
of them. -/
theorem parameterNames_follows (hturns : byteLength root.source < root.turns)
    (hctx : root.Within ctx) (hs : s.Good root) {ids : List Identifier}
    (hrun : parameterNames ctx s = (.ok ids, t))
    (harrow : t.current.isPunctuator .arrow = true)
    (htoken : x.nextSignificant.token = s.current)
    (hscanner : x.nextSignificant.scanner = s.scanner) :
    x.parameterListFollows = true := by
  by_cases hempty : s.current.isPunctuator .rParen = true
  · have hrun : (ite (s.current.isPunctuator .rParen = true) _ _ : Parse _)
      ctx s = _ := hrun
    rw [if_pos hempty, pure_bind] at hrun
    obtain ⟨_, u, hrun, hend⟩ := of_bind_run hrun
    obtain ⟨_, hrun⟩ := of_discard_run hrun
    obtain ⟨_, rfl⟩ := of_expectPunctuator_run hrun
    cases hend
    rw [State.bump_current, ← hscanner] at harrow
    refine x.parameterListFollows_of_close ?_ harrow
    rw [Scanner.peek, htoken, hempty]
  · have hrun : (ite (s.current.isPunctuator .rParen = true) _ _ : Parse _)
      ctx s = _ := hrun
    rw [if_neg hempty] at hrun
    have hrun : (parameterNamesFrom ctx.turns [] >>= _) ctx s = _ := hrun
    have hcomes := (parameterNamesLoop_proceeds hturns).comes hctx hs []
    obtain ⟨names, u, hnames, hrun⟩ := of_bind_run hrun
    rw [show parameterNamesLoop.run ctx.turns [] ctx s = _ from hnames]
      at hcomes
    obtain ⟨_, v, hrun, hend⟩ := of_bind_run hrun
    obtain ⟨_, hrun⟩ := of_discard_run hrun
    obtain ⟨hclose, rfl⟩ := of_expectPunctuator_run hrun
    cases hend
    exact x.parameterListFollows_of_names (namesAndArrowFollow_of_comes
      hcomes hclose harrow htoken hscanner)

/-- **An arrow function begins with its arrow.** -/
theorem arrow_of_run {g : Grammar} {isAsync : Bool}
    {params : List Identifier} {start : Nat} {e : Expression}
    (h : arrowFunction g isAsync params start ctx s = (.ok e, t)) :
    s.current.isPunctuator .arrow = true := by
  obtain ⟨_, u, hrun, _⟩ := of_bind_run h
  obtain ⟨_, hrun⟩ := of_discard_run hrun
  exact (of_expectPunctuator_run hrun).1

/-! ## What is seen -/

/-- **What is looked at far ahead** is seen in the other text only if it is
seen in the first; and where it is, what is read afterwards shows it. -/
theorem Mirrors.sight [hE : M.Backward E] [HasNodes α] {μ : α → α}
    {S : State → State → Prop} {c c' : Prop} [Decidable c] [Decidable c']
    {p q p' q' : Parse α} (hc : H → M.Fits s → c' → c)
    (hp : c → Mirrors M E H B μ p p' ctx s s' S)
    (hshow : c → H → M.image.Within (M.reflect ctx) → ∀ a t',
      p' (M.reflect ctx) s' = (.ok a, t') → c')
    (hq : ¬c → Mirrors M E H B μ q q' ctx s s' S) :
    Mirrors M E H B μ (if c then p else q) (if c' then p' else q') ctx s s'
      S := by
  by_cases h : c
  · rw [if_pos h]
    refine ⟨(hp h).runs, (hp h).marks,
      fun hH hctx hs a t hrun ht hunmarked => ?_⟩
    obtain ⟨t', hrun', hS⟩ := (hp h).same hH hctx hs hrun ht hunmarked
    rw [if_pos (hshow h hH (M.within_image hctx) _ _ hrun')]
    exact ⟨t', hrun', hS⟩
  · rw [if_neg h]
    refine .of_fits (.congr (fun hH => ?_) ((hq h).mono And.left id
      (fun _ => id) (fun _ _ => id)))
    rw [if_neg (fun h' => h (hc hH.1 hH.2 h'))]

/-! ## Arrow functions -/

variable {g : Grammar} (hg : g.Mirrored M)

include hg

/-- **Parameters with an arrow behind them** are seen as such from in front
of their parenthesis. -/
theorem parameterList_follows {isAsync : Bool} {start : Nat}
    {f : Expression → Parse β} {b : β} (hctx : M.image.Within ctx)
    (hs : s.Good M.image)
    (h : (parameterList g >>= fun params =>
      arrowFunction g isAsync params start >>= f) ctx s = (.ok b, t)) :
    s.current.isPunctuator .lParen = true
      ∧ s.scanner.parameterListFollows = true := by
  obtain ⟨ids, u, hparams, hrun⟩ := of_bind_run h
  obtain ⟨_, v, harrow, _⟩ := of_bind_run hrun
  obtain ⟨_, w, hopen, hparams⟩ := of_bind_run hparams
  obtain ⟨hst, _⟩ := (expectPunctuator_past .lParen).of_run hctx hs hopen
  obtain ⟨_, hopen⟩ := of_discard_run hopen
  obtain ⟨hmark, rfl⟩ := of_expectPunctuator_run hopen
  refine ⟨hmark, hg.follows hctx hst.good hparams (arrow_of_run harrow) ?_ ?_⟩
  · rw [State.bump_current]
    rfl
  · rw [State.bump_scanner]

end Parse

end ScriptTree
