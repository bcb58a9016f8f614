import ScriptTree.Proofs.Mirror.Arrow

/-!
# Operands in both texts

What an operand is shows in its first token, so most cases are those of
that token's kind. A slash is read again as a regular expression, and the
other text might have another one in its place: then the literal is
marked. The word for the superclass asks for a token behind it, which the
other text might not have: then this word is marked.
-/

namespace ScriptTree.Parse

open ScriptTree.Action Mirror

variable {M : Mirror} {E : State → Prop} {H B : Prop} {ctx : Context}
  {s s' t : State} {root : Context} {α β : Type} [M.Lawful]

/-! ## Literals -/

theorem regexLiteral_mirrors [M.Backward E] (h : H → M.Fresh s s')
    (hkind : s.current.kind = .regex) :
    Mirrors M E H False M.move regexLiteral regexLiteral ctx s s'
      M.Along := by
  refine .look s.current s'.current rfl rfl (.congr (fun hH => ?_)
    (literal_mirrors (.regex (String.ofList (regexParts
      s.current.text.toList).1) (String.ofList (regexParts
      s.current.text.toList).2)) h
      (isEof_eq_false hkind (fun h => nomatch h))
      (isDot_eq_false hkind (fun h => nomatch h))))
  rw [(h hH).current_eq]
  rfl

theorem regexLiteral_run (ctx : Context) (s : State) :
    ∃ pattern flags, regexLiteral ctx s
      = (.ok ⟨.regex pattern flags, s.current.text, s.current.span⟩,
        s.bump ctx) :=
  ⟨_, _, rfl⟩

/-- A slash read again is a regular expression. -/
theorem rescanRegex_kind (ctx : Context) (s : State) :
    (s.rescanRegex ctx).current.kind = .regex := by
  obtain ⟨t, _, heq⟩ := State.rescanRegex_eq ctx s
  rw [heq]
  rfl

theorem rescannedRegex_run (ctx : Context) (s : State) :
    rescannedRegex ctx s = regexLiteral ctx (s.rescanRegex ctx) := rfl

/-- **A slash is read again in both texts**, or the literal is marked. -/
theorem rescannedRegex_mirrors (h : H → M.Fresh s s')
    (hslash : s.current.isSlash = true) :
    Mirrors M M.Fits H False M.move rescannedRegex rescannedRegex ctx s s'
      M.Along where
  runs := (rescannedRegex_ensures (fun _ => True)
    (Token.isSlash_iff.1 hslash)).mono (fun _ _ _ _ => trivial)
  marks h := h.elim
  same hH hctx hs l t hrun ht hunmarked := by
    have hagain : s.rescanRegex ctx = s.rescanRegex M.root :=
      State.rescanRegex_congr hctx s
    have hagain' : s'.rescanRegex (M.reflect ctx) = s'.rescanRegex M.image :=
      State.rescanRegex_congr (M.within_image hctx) s'
    have hgood : (s.rescanRegex M.root).Good M.root :=
      (State.rescanRegex_good hs (Token.isSlash_iff.1 hslash)).1
    have hkind := rescanRegex_kind M.root s
    rw [rescannedRegex_run, hagain] at hrun
    obtain ⟨hst, _⟩ := (regexLiteral_ensures (fun _ => True)
      hkind).of_run hctx hgood hrun
    rcases Lawful.rescan (h hH) hslash (Lawful.fits_of_leads hst ht) with
      hfresh | hmark
    · obtain ⟨t', hrun', hstate⟩ := (regexLiteral_mirrors (E := M.Fits)
        (H := True) (fun _ => hfresh) hkind).same trivial hctx hgood hrun ht
        hunmarked
      refine ⟨t', ?_, hstate⟩
      rw [rescannedRegex_run, hagain', hrun']
    · obtain ⟨pattern, flags, hread⟩ :=
        regexLiteral_run ctx (s.rescanRegex M.root)
      rw [hread] at hrun
      have hl : l = ⟨.regex pattern flags,
          (s.rescanRegex M.root).current.text,
          (s.rescanRegex M.root).current.span⟩ :=
        (Except.ok.inj (congrArg Prod.fst hrun)).symm
      have hmarked : M.Mark (.literal l) := hl ▸ hmark pattern flags
      exact (hunmarked (marked_of_mark (List.mem_singleton_self _)
        hmarked)).elim

omit [M.Lawful] in
/-- A literal as an operand. -/
theorem literalOperand_mirrors [M.Backward E] {p q : Parse Literal}
    (hp : Mirrors M E H False M.move p q ctx s s' M.Along) :
    Mirrors M E H False M.move (p >>= fun l => pure (Expression.literal l))
      (q >>= fun l => pure (Expression.literal l)) ctx s s' M.Along :=
  hp.bind (fun _ _ _ => .pure And.right
    (fun h => (h.resolve_left id).expression (fun _ hc => hc)) rfl)

/-! ## Arrow functions -/

section Arrows

variable {g : Grammar} (hg : g.Mirrored M)

include hg

omit hg [M.Lawful] in
theorem arrowFunction_past {P : Expression → Prop} (hg : g.Sound root P)
    (isAsync : Bool) (params : List Identifier) (start : Nat) :
    Ensures root (arrowFunction g isAsync params start) ctx s
      (fun _ t => s.here < t.consumedTo) := by
  refine (expectPunctuator_past .arrow).past (fun _ t => ?_)
  refine .look (t.current.isPunctuator .lBrace) rfl ?_
  dsimp only
  refine .ite (fun _ => ?_) (fun _ => ?_)
  · exact Ensures.bind (Q := fun _ _ => True)
      (.map (hg.block.mono (fun _ _ _ _ => trivial)))
      (fun _ u _ _ => .look (u.spanFrom start) rfl (.pure trivial))
  · exact Ensures.bind (Q := fun _ _ => True)
      (.map ((assignment_ensures hg).mono (fun _ _ _ _ => trivial)))
      (fun _ u _ _ => .look (u.spanFrom start) rfl (.pure trivial))

theorem arrowFunction_mirrors (isAsync : Bool) (params : List Identifier)
    (start : Nat) (h : H → M.Start s s') :
    Mirrors M M.Fits H False M.move (arrowFunction g isAsync params start)
      (arrowFunction g isAsync (M.move params) (M.place start)) ctx s s'
      M.Along := by
  refine (expectPunctuator_mirrors (by decide) h).discard.seq
    (fun _ t t' => ?_)
  have hrest {H : Prop} (body : ArrowBody) (u u' : State) :
      Mirrors M M.Fits (H ∧ M.Along u u') (False ∨ M.Marked body) M.move
        (do
          let span ← liftM (spanFrom start)
          pure (Expression.arrow isAsync params body span))
        (do
          let span ← liftM (spanFrom (M.place start))
          pure (Expression.arrow isAsync (M.move params) (M.move body) span))
        ctx u u' M.Along :=
    .span (fun h => h.2.consumedTo_eq) (.pure And.right
      (fun h => (h.resolve_left id).expression
        (fun _ hc => List.mem_append_right _ hc)) rfl)
  refine .look (t.current.isPunctuator .lBrace)
    (t'.current.isPunctuator .lBrace) rfl rfl ?_
  dsimp only
  refine .test (Token.asks_punctuator .lBrace) (fun h => h.2.start)
    (fun _ => ?_) (fun _ => ?_) (fun _ => ?_)
  · refine Ensures.bind (Q := fun _ u => t.here < u.consumedTo)
      (.map (hg.sound.block.mono (fun _ _ _ h => h.1)))
      (fun body u _ hpast => .look (u.spanFrom start) rfl (.pure hpast))
  · have hbody : Mirrors M M.Fits ((H ∧ M.Along t t') ∧ M.Fresh t t') False
        M.move (ArrowBody.block <$> g.block) (ArrowBody.block <$> g.block)
        ctx t t' M.Along :=
      (hg.block (fun h => h.2.start)).map (fun _ => rfl)
        (fun _ h => h.resolve_left id)
    exact hbody.bind hrest
  · have hbody : Mirrors M M.Fits (H ∧ M.Along t t') False M.move
        (ArrowBody.expression <$> assignment g)
        (ArrowBody.expression <$> assignment g) ctx t t' M.Along :=
      (assignment_alike hg (fun h => h.2.start)).map (fun _ => rfl)
        (fun _ h => h.resolve_left id)
    exact hbody.bind hrest

omit hg [M.Lawful] in
/-- What is done about a function behind the word for an asynchronous one
is done in each of its cases. -/
theorem asyncFunction?_bind (f : Option Expression → Parse β) :
    asyncFunction? g >>= f = (do
      let s ← get
      let start := s.current.span.start
      if s.scanner.peek.isKeyword .kwFunction then
        discard (liftM advance)
        functionExpression g true start >>= fun e => f (some e)
      else if (decide (s.scanner.peek.kind = .identifier)
          && s.scanner.peekSecond.isPunctuator .arrow) = true then
        discard (liftM advance)
        let param ← identifier
        arrowFunction g true [param] start >>= fun e => f (some e)
      else if (s.scanner.peek.isPunctuator .lParen
          && s.scanner.nextSignificant.scanner.parameterListFollows)
            = true then
        discard (liftM advance)
        parameterList g >>= fun params =>
          arrowFunction g true params start >>= fun e => f (some e)
      else f none) := by
  unfold asyncFunction?
  rw [bind_assoc]
  refine bind_congr (fun s => ?_)
  dsimp only
  split
  · simp only [bind_assoc, pure_bind]
  split
  · simp only [bind_assoc, pure_bind]
  split
  · simp only [bind_assoc, pure_bind]
  · rw [pure_bind]

/-- **A function behind the word for an asynchronous one** is one in both
texts. -/
theorem asyncFunction?_mirrors {f f' : Option Expression → Parse Expression}
    (h : H → M.Fresh s s') (hkind : s.current.kind = .identifier)
    (hsome : ∀ e, f (some e) = pure e) (hsome' : ∀ e, f' (some e) = pure e)
    (hnone : Mirrors M M.Fits H False M.move (f none) (f' none) ctx s s'
      M.Along) :
    Mirrors M M.Fits H False M.move (asyncFunction? g >>= f)
      (asyncFunction? g >>= f') ctx s s' M.Along := by
  have hslash : s.current.isSlash = false :=
    isSlash_eq_false hkind (fun h => nomatch h) (fun h => nomatch h)
  have hword {H : Prop} (h : H → M.Fresh s s') :
      Mirrors M M.Fits H False id (discard (liftM advance))
        (discard (liftM advance)) ctx s s' M.Along :=
    (advance_mirrors_kind h hkind (fun h => nomatch h)
      (fun h => nomatch h)).discard
  have htwin (hH : H) (hfits : M.Fits s) : M.Twin s.scanner s'.scanner :=
    Lawful.twin (h hH) hfits hslash
  rw [asyncFunction?_bind, asyncFunction?_bind]
  simp only [hsome, hsome', bind_pure]
  refine .look s s' rfl rfl ?_
  refine .sight (fun hH hfits hseen => ?_) (fun _ => ?_)
    (fun _ hH _ _ _ hrun => ?_) (fun _ => ?_)
  · exact decide_eq_true (Lawful.next_of (htwin hH hfits)
      (of_decide_eq_true hseen) (fun h => nomatch h) (fun h => nomatch h)
      (fun h => nomatch h)).1
  · refine .congr (fun hH => by rw [(h hH).start_eq]) ?_
    exact (hword h).seq (fun _ _ _ =>
      functionExpression_mirrors hg true _ (fun h => h.2.start))
  · obtain ⟨_, t, hword, hrun⟩ := of_bind_run hrun
    obtain ⟨_, u, hrun, _⟩ := of_bind_run hrun
    obtain ⟨_, hword⟩ := of_discard_run hword
    obtain ⟨_, hrun⟩ := of_discard_run hrun
    cases hword
    rw [← State.bump_current]
    exact of_expectKeyword_run hrun
  refine .sight (fun hH hfits hseen => ?_) (fun _ => ?_)
    (fun _ hH _ _ _ hrun => ?_) (fun _ => ?_)
  · rw [Bool.and_eq_true] at hseen ⊢
    obtain ⟨hname, htwin⟩ := Lawful.next_of (htwin hH hfits)
      (of_decide_eq_true hseen.1) (fun h => nomatch h) (fun h => nomatch h)
      (fun h => nomatch h)
    refine ⟨decide_eq_true hname, ?_⟩
    rw [Scanner.peekSecond_eq _ hname (fun h => nomatch h)]
    rw [Scanner.peekSecond_eq _ (of_decide_eq_true hseen.1)
      (fun h => nomatch h)] at hseen
    exact arrowFollows_of htwin hseen.2
  · refine .congr (fun hH => by rw [(h hH).start_eq]) ?_
    refine (hword h).seq (fun _ _ _ => ?_)
    exact (identifier_mirrors (fun h => h.2.start)).seq (fun param _ _ =>
      arrowFunction_mirrors hg true [param] _ (fun h => h.2.start))
  · obtain ⟨_, t, hword, hrun⟩ := of_bind_run hrun
    obtain ⟨_, u, hname, hrun⟩ := of_bind_run hrun
    obtain ⟨_, hword⟩ := of_discard_run hword
    cases hword
    obtain ⟨hkind, rfl⟩ := of_identifier_run hname
    have harrow := arrow_of_run hrun
    dsimp only at hkind harrow
    rw [State.bump_current] at hkind
    rw [State.bump_current, State.bump_scanner] at harrow
    rw [Bool.and_eq_true, Scanner.peekSecond_eq _ hkind
      (fun h => nomatch h)]
    exact ⟨decide_eq_true hkind, harrow⟩
  refine .sight (fun hH hfits hseen => ?_) (fun _ => ?_)
    (fun _ hH hctx _ _ hrun => ?_) (fun _ => hnone)
  · rw [Bool.and_eq_true] at hseen ⊢
    obtain ⟨hopen, htwin⟩ := Lawful.next_of (htwin hH hfits)
      (of_decide_eq_true hseen.1) (fun h => nomatch h) (fun h => nomatch h)
      (fun h => nomatch h)
    exact ⟨decide_eq_true hopen, parameterListFollows_of htwin hseen.2⟩
  · refine .congr (fun hH => by rw [(h hH).start_eq]) ?_
    refine (hword h).seq (fun _ _ _ => ?_)
    exact (parameterList_alike hg (fun h => h.2.start)).seq
      (fun params _ _ =>
        arrowFunction_mirrors hg true params _ (fun h => h.2.start))
  · obtain ⟨_, t, hword, hrun⟩ := of_bind_run hrun
    obtain ⟨hst, _⟩ := (advance_past (isEof_eq_false ((h hH).kind_eq.trans
      hkind) (fun h => nomatch h))).of_run hctx (h hH).good' hword
    obtain ⟨_, hword⟩ := of_discard_run hword
    cases hword
    obtain ⟨hopen, hlist⟩ := parameterList_follows hg (f := pure) hctx
      hst.good (by simpa only [bind_pure] using hrun)
    rw [State.bump_current] at hopen
    rw [State.bump_scanner] at hlist
    exact Bool.and_eq_true_iff.2 ⟨hopen, hlist⟩

theorem nameOrArrow_mirrors (h : H → M.Fresh s s')
    (hkind : s.current.kind = .identifier) :
    Mirrors M M.Fits H False M.move (nameOrArrow g) (nameOrArrow g) ctx s s'
      M.Along := by
  refine .look s.current s'.current rfl rfl (.look s.scanner.peek
    s'.scanner.peek rfl rfl ?_)
  refine .peek (Token.asks_punctuator .arrow) h (isSlash_eq_false hkind
    (fun h => nomatch h) (fun h => nomatch h)) (fun _ => ?_) (fun _ => ?_)
    (fun _ => ?_)
  · exact Ensures.twice ((identifier_ensures (fun _ => True)).mono
      (fun _ _ _ h => h.1))
      (fun _ _ => arrowFunction_past hg.sound _ _ _)
  · refine .congr (fun hH => by rw [(h hH.1).start_eq]) ?_
    exact (identifier_mirrors (fun hH => (h hH.1).start)).seq
      (fun param _ _ =>
        arrowFunction_mirrors hg false [param] _ (fun h => h.2.start))
  · exact (identifier_mirrors (fun hH => (h hH).start)).seq
      (fun _ _ _ => .pure And.right False.elim rfl)

theorem nameOperand_mirrors (h : H → M.Fresh s s')
    (hkind : s.current.kind = .identifier) :
    Mirrors M M.Fits H False M.move (nameOperand g) (nameOperand g) ctx s s'
      M.Along := by
  refine .look (s.current.isWord "async") (s'.current.isWord "async") rfl
    rfl (.ite (fun hH => by rw [(h hH).asks (Token.asks_word "async")])
      (fun _ => ?_) (fun _ => nameOrArrow_mirrors hg h hkind))
  exact asyncFunction?_mirrors hg h hkind (fun _ => rfl) (fun _ => rfl)
    (nameOrArrow_mirrors hg h hkind)

theorem parenthesizedOrArrow_mirrors (h : H → M.Fresh s s')
    (hkind : s.current.kind = .punctuator .lParen) :
    Mirrors M M.Fits H False M.move (parenthesizedOrArrow g)
      (parenthesizedOrArrow g) ctx s s' M.Along := by
  refine .look s s' rfl rfl ?_
  refine .sight (fun hH hfits hseen => ?_) (fun _ => ?_)
    (fun _ hH hctx _ _ hrun => ?_) (fun _ => ?_)
  · exact parameterListFollows_of (Lawful.twin (h hH) hfits
      (isSlash_eq_false hkind (fun h => nomatch h) (fun h => nomatch h)))
      hseen
  · refine .congr (fun hH => by rw [(h hH).start_eq]) ?_
    exact (parameterList_alike hg (fun hH => (h hH).start)).seq
      (fun params _ _ =>
        arrowFunction_mirrors hg false params _ (fun h => h.2.start))
  · exact (parameterList_follows hg (f := pure) hctx (h hH).good'
      (by simpa only [bind_pure] using hrun)).2
  · refine .congr (fun hH => by rw [(h hH).start_eq]) ?_
    refine (condition_alike hg (fun hH => (h hH).start)).bind
      (fun e t t' => ?_)
    exact .span (fun h => h.2.consumedTo_eq) (.pure And.right
      (fun h => (h.resolve_left id).expression (fun _ hc => hc)) rfl)

end Arrows

/-! ## Brackets -/

section Brackets

variable {g : Grammar} (hg : g.Mirrored M)

include hg

theorem arrayElements_alike :
    Alike M M.More M.Along (arrayElements g) (arrayElements g) :=
  fun h => separated_mirrors (Expression.move_isError M.place)
    (Plan.assignment.abreast hg.abreast)
    (fun _ _ => assignment_alike hg Along.start) .listElement .rBracket
    (separatedLoop_proceeds (Nat.lt_succ_self (byteLength M.text))
      hg.sound.mend_expression (assignment_ensures hg.sound))
    (separatedLoop_proceeds (Nat.lt_succ_self (byteLength M.other))
      hg.sound'.mend_expression (assignment_ensures hg.sound')) h

/-- **An array is the same in both texts.** -/
theorem arrayLiteral_alike :
    Alike M M.Fits M.Start (arrayLiteral g) (arrayLiteral g) := by
  intro H ctx s s' h
  refine (expectPunctuator_mirrors (by decide) h).seq
    (fun opening t t' => ?_)
  refine (hg.elements And.right).bindMore (fun _ _ => ?_)
    (fun elements u u' => ?_)
  · exact (expectPunctuator_past .rBracket).past
      (fun _ t => .look (t.spanFrom _) rfl (.pure trivial))
  refine (expectPunctuator_mirrors (by decide)
    (fun h => h.2.start)).discard.seq (fun _ v v' => ?_)
  refine .span (fun h => h.2.consumedTo_eq) (.pure And.right ?_ ?_)
  · exact fun h => (h.resolve_left id).expression
      (fun _ hc => by simpa [Expression.children] using hc)
  · show _ = Expression.array (moveExpressions _ _) _
    rw [moveExpressions_eq]
    rfl

theorem pairWith_mirrors (key : PropertyKey) (start : Nat)
    (h : H → M.Start s s') :
    Mirrors M M.Fits H (M.Marked key) M.move (pairWith g key start)
      (pairWith g (M.move key) (M.place start)) ctx s s' M.Along := by
  refine (expectPunctuator_mirrors (by decide) h).discard.seq
    (fun _ t t' => ?_)
  refine (assignment_alike hg (fun h => h.2.start)).bind
    (fun value u u' => .pure And.right (fun h => ?_) ?_)
  · rcases h with h | h
    · exact h.sub (fun _ hn => List.mem_cons.2 (.inl
      (List.mem_singleton.1 hn)))
    · exact h.sub (fun _ hn => List.mem_cons_of_mem _ hn)
  · show ObjectMember.pair _ (value.move _)
      ⟨_, (value.move M.place).span.stop⟩ = _
    rw [Expression.move_span]
    rfl

/-- A method as a member. -/
theorem methodMember_mirrors (start : Nat) (h : H → M.Along s s') :
    Mirrors M M.Fits H False M.move
      (method g false start >>= fun m => pure (ObjectMember.method m))
      (method g false (M.place start) >>= fun m =>
        pure (ObjectMember.method m)) ctx s s' M.Along :=
  (method_mirrors hg false start h).bind (fun _ _ _ => .pure And.right
    (fun h => (h.resolve_left id).sub (fun _ hn => hn)) rfl)

omit [M.Lawful] hg in
/-- A member begins with a token. -/
theorem objectMember_past {P : Expression → Prop} (hg : g.Sound root P) :
    Ensures root (objectMember g) ctx s
      (fun _ t => s.here < t.consumedTo) :=
  (objectMember_ensures hg).mono (fun _ _ _ h => h.1)

/-- **A name as a key** stands before a colon in both texts. -/
theorem namedMember_mirrors (start : Nat) (h : H → M.Along s s')
    (hfresh : H → M.Fresh s s') (hslash : s.current.isSlash = false) :
    Mirrors M M.Fits H False M.move
      (do
        let next ← liftM peek
        if next.isPunctuator .colon = true then
          pairWith g (.identifier (← propertyName)) start
        else return .method (← method g false start))
      (do
        let next ← liftM peek
        if next.isPunctuator .colon = true then
          pairWith g (.identifier (← propertyName)) (M.place start)
        else return .method (← method g false (M.place start))) ctx s s'
      M.Along := by
  refine .look s.scanner.peek s'.scanner.peek rfl rfl ?_
  refine .peek (Token.asks_punctuator .colon) hfresh hslash (fun _ => ?_)
    (fun _ => ?_) (fun _ => methodMember_mirrors hg start h)
  · refine Ensures.twice ((propertyName_ensures (fun _ => True)).mono
      (fun _ _ _ h => h.1)) (fun _ _ => ?_)
    exact (expectPunctuator_past .colon).past (fun _ _ =>
      (assignment_ensures hg.sound).bind (fun _ _ _ _ => .pure trivial))
  · refine (propertyName_mirrors (fun hH => (h hH.1).start)).seq
      (fun name t t' => ?_)
    exact (pairWith_mirrors hg (.identifier name) start
      (fun h => h.2.start)).mono id False.elim (fun _ => id)
      (fun _ _ => id)

/-- **A member of an object is the same in both texts.** -/
theorem objectMember_alike :
    Alike M M.Fits M.Along (objectMember g) (objectMember g) := by
  intro H ctx s s' h
  refine .reading (objectMember_past hg.sound) ?_
  have hfresh (hH : H ∧ M.More s) : M.Fresh s s' :=
    ((h hH.1).inside hH.2).toFresh
  have hslash {kind : TokenKind} (hkind : s.current.kind = kind)
      (h : kind ≠ .punctuator .slash) (h' : kind ≠ .punctuator .slashEq) :
      s.current.isSlash = false := isSlash_eq_false hkind h h'
  have hliteral (kind : LiteralKind) {tokenKind : TokenKind}
      (hkind : s.current.kind = tokenKind) (heof : tokenKind ≠ .eof)
      (hdot : tokenKind ≠ .punctuator .dot) :
      Mirrors M M.Fits (H ∧ M.More s) False M.move (literal kind)
        (literal kind) ctx s s' M.Along :=
    literal_mirrors kind hfresh (isEof_eq_false hkind heof)
      (isDot_eq_false hkind hdot)
  refine .look s.current s'.current rfl rfl ?_
  refine .congr (fun hH => by rw [(hfresh hH).current_eq]) ?_
  have hsame : (M.token s.current).kind = s.current.kind := rfl
  rw [hsame]
  dsimp only
  cases hkind : s.current.kind with
  | string =>
    refine (hliteral .string hkind (fun h => nomatch h)
      (fun h => nomatch h)).bind (fun l t t' => ?_)
    exact (pairWith_mirrors hg (.string l) _ (fun h => h.2.start)).mono id
      (fun h => h.resolve_left id) (fun _ => id) (fun _ _ => id)
  | number =>
    refine (hliteral .number hkind (fun h => nomatch h)
      (fun h => nomatch h)).bind (fun l t t' => ?_)
    exact (pairWith_mirrors hg (.number l) _ (fun h => h.2.start)).mono id
      (fun h => h.resolve_left id) (fun _ => id) (fun _ _ => id)
  | punctuator p =>
    cases p with
    | star => exact methodMember_mirrors hg _ (fun hH => h hH.1)
    | _ => exact unexpected_mirrors _
  | identifier =>
    exact namedMember_mirrors hg _ (fun hH => h hH.1) hfresh
      (hslash hkind (fun h => nomatch h) (fun h => nomatch h))
  | keyword k =>
    exact namedMember_mirrors hg _ (fun hH => h hH.1) hfresh
      (hslash hkind (fun h => nomatch h) (fun h => nomatch h))
  | _ => exact unexpected_mirrors _

theorem objectMembers_alike :
    Alike M M.More M.Along (objectMembers g) (objectMembers g) :=
  fun h => separated_mirrors (fun m => by cases m <;> rfl)
    (Plan.objectMember.abreast hg.abreast)
    (fun _ _ => objectMember_alike hg id) .listElement .rBrace
    (separatedLoop_proceeds (Nat.lt_succ_self (byteLength M.text))
      mend_member (objectMember_ensures hg.sound))
    (separatedLoop_proceeds (Nat.lt_succ_self (byteLength M.other))
      mend_member (objectMember_ensures hg.sound')) h

/-- **An object is the same in both texts.** -/
theorem objectLiteral_alike :
    Alike M M.Fits M.Start (objectLiteral g) (objectLiteral g) := by
  intro H ctx s s' h
  refine (expectPunctuator_mirrors (by decide) h).seq
    (fun opening t t' => ?_)
  refine (hg.members And.right).bindMore (fun _ _ => ?_)
    (fun members u u' => ?_)
  · exact (expectPunctuator_past .rBrace).past
      (fun _ t => .look (t.spanFrom _) rfl (.pure trivial))
  refine (expectPunctuator_mirrors (by decide)
    (fun h => h.2.start)).discard.seq (fun _ v v' => ?_)
  refine .span (fun h => h.2.consumedTo_eq) (.pure And.right ?_ ?_)
  · exact fun h => (h.resolve_left id).expression (fun _ hc => hc)
  · show _ = Expression.object (moveMembers _ _) _
    rw [moveMembers_eq]
    rfl

end Brackets

/-! ## Any operand -/

theorem asks_opensAccess : Token.Asks opensAccess where
  congr hkind _ := by
    simp only [opensAccess, Token.isPunctuator, hkind]
  eof ht := by
    simp only [opensAccess, (Token.asks_punctuator _).eof ht]
    rfl

theorem superOperand_run (ctx : Context) (s : State) :
    superOperand ctx s = if opensAccess (s.bump ctx).current then
        (.ok (.super s.current.span), s.bump ctx)
      else unexpected "'(' or '.' after 'super'" ctx (s.bump ctx) := by
  show (ite (opensAccess (s.bump ctx).current = true) _ _ : Parse _) ctx
    (s.bump ctx) = _
  split <;> rfl

/-- **The superclass's view of an object** is one in both texts, or it is
marked. -/
theorem superOperand_mirrors (h : H → M.Fresh s s')
    (hkind : s.current.kind = .keyword .kwSuper) :
    Mirrors M M.Fits H False M.move superOperand superOperand ctx s s'
      M.Along where
  runs := (Ensures.lift (advance_ensures (isEof_eq_false hkind
    (fun h => nomatch h)))).bind (fun _ t _ _ => .look t.current rfl
      (.ite (fun _ => .pure trivial) (fun _ => unexpected_ensures _)))
  marks h := h.elim
  same hH hctx hs e t hrun ht hunmarked := by
    rw [superOperand_run] at hrun
    split at hrun
    · rename_i hopens
      cases hrun
      obtain ⟨t', hrun', halong⟩ := (advance_mirrors_kind (E := M.Fits) h
        hkind (fun h => nomatch h) (fun h => nomatch h)).same hH hctx hs rfl
        ht (not_marked _)
      have ht' : s'.bump (M.reflect ctx) = t' := congrArg Prod.snd hrun'
      subst ht'
      refine ⟨s'.bump (M.reflect ctx), ?_, halong⟩
      rcases halong.at_ with hinside | hover
      · rw [superOperand_run, if_pos]
        · rw [(h hH).current_eq]
          rfl
        · rw [hinside.asks asks_opensAccess, hopens]
      -- Nothing comes behind the last token of the part.
      · have hmark : M.Mark (.expression (.super ⟨s.current.span.start,
            (s.bump ctx).consumedTo⟩)) := Lawful.super ht hover.done
        rw [State.bump_consumedTo] at hmark
        exact (hunmarked (marked_of_mark (List.mem_singleton_self _)
          hmark)).elim
    · exact nomatch congrArg Prod.fst hrun

variable {g : Grammar} (hg : g.Mirrored M)

include hg

theorem keywordOperand_mirrors (k : Keyword) (h : H → M.Fresh s s')
    (hkind : s.current.kind = .keyword k) :
    Mirrors M M.Fits H False M.move (keywordOperand g k)
      (keywordOperand g k) ctx s s' M.Along := by
  have hliteral (kind : LiteralKind) :
      Mirrors M M.Fits H False M.move
        (literal kind >>= fun l => pure (Expression.literal l))
        (literal kind >>= fun l => pure (Expression.literal l)) ctx s s'
        M.Along :=
    literalOperand_mirrors (literal_mirrors kind h
      (isEof_eq_false hkind (fun h => nomatch h))
      (isDot_eq_false hkind (fun h => nomatch h)))
  unfold keywordOperand
  cases k with
  | kwThis =>
    exact (advance_mirrors_kind h hkind (fun h => nomatch h)
      (fun h => nomatch h)).seq (fun _ _ _ => .pure And.right False.elim rfl)
  | kwSuper => exact superOperand_mirrors h hkind
  | kwTrue | kwFalse | kwNull | kwUndefined => exact hliteral _
  | kwFunction =>
    exact .here h (functionExpression_mirrors hg false _
      (fun hH => (h hH).start))
  | kwClass =>
    exact (classDefinition_alike hg false (fun hH => (h hH).start)).bind
      (fun _ _ _ => .pure And.right
        (fun h => (h.resolve_left id).expression (fun _ hc => hc)) rfl)
  | _ => exact unexpected_mirrors _

/-- **An operand is the same in both texts.** -/
theorem primary_alike : Alike M M.Fits M.Start (primary g) (primary g) := by
  intro H ctx s s' h
  refine .begin ((primary_ensures hg.sound).mono (fun _ _ _ h => h.1.1)) h ?_
  have hfresh (hH : H ∧ M.Fresh s s') : M.Fresh s s' := hH.2
  have hliteral (kind : LiteralKind) {tokenKind : TokenKind}
      (hkind : s.current.kind = tokenKind) (heof : tokenKind ≠ .eof)
      (hdot : tokenKind ≠ .punctuator .dot) :
      Mirrors M M.Fits (H ∧ M.Fresh s s') False M.move
        (literal kind >>= fun l => pure (Expression.literal l))
        (literal kind >>= fun l => pure (Expression.literal l)) ctx s s'
        M.Along :=
    literalOperand_mirrors (literal_mirrors kind hfresh
      (isEof_eq_false hkind heof) (isDot_eq_false hkind hdot))
  have hslash (hkind : s.current.isSlash = true) :
      Mirrors M M.Fits (H ∧ M.Fresh s s') False M.move
        (rescannedRegex >>= fun l => pure (Expression.literal l))
        (rescannedRegex >>= fun l => pure (Expression.literal l)) ctx s s'
        M.Along :=
    literalOperand_mirrors (rescannedRegex_mirrors hfresh hkind)
  refine .look s.current s'.current rfl rfl ?_
  refine .congr (fun hH => by rw [hH.2.kind_eq]) ?_
  cases hkind : s.current.kind with
  | identifier => exact nameOperand_mirrors hg hfresh hkind
  | number | string | template =>
    exact hliteral _ hkind (fun h => nomatch h) (fun h => nomatch h)
  | regex =>
    exact literalOperand_mirrors (regexLiteral_mirrors hfresh hkind)
  | punctuator p =>
    cases p with
    | slash =>
      exact hslash (Bool.or_eq_true_iff.2 (.inl (decide_eq_true hkind)))
    | slashEq =>
      exact hslash (Bool.or_eq_true_iff.2 (.inr (decide_eq_true hkind)))
    | lParen => exact parenthesizedOrArrow_mirrors hg hfresh hkind
    | lBracket => exact arrayLiteral_alike hg (fun hH => hH.2.start)
    | lBrace => exact objectLiteral_alike hg (fun hH => hH.2.start)
    | _ => exact unexpected_mirrors _
  | keyword k => exact keywordOperand_mirrors hg k hfresh hkind
  | _ => exact unexpected_mirrors _

end ScriptTree.Parse
