import ScriptTree.Proofs.Account.Operand
import ScriptTree.Proofs.Break.Course
import ScriptTree.Proofs.Derive.Grammar

/-!
# How operands are derived

Functions, classes and methods come first, then all else an operand may be.
A slash may be read again as a regular expression only where it is the
current token, so what is behind it is looked at by no production.
-/

namespace ScriptTree.Parse

open ScriptTree.Action State

variable {root ctx : Context} {R : Replay root} {K : Set Mark} {r s : State}
  {F : List Node}

/-! ## Names -/

theorem parameterNamesFrom_derives (turns : Nat) {found : List Identifier}
    (hfound : R.Yields ctx K r (found.reverse.map .identifier) s) :
    Derives R K (parameterNamesFrom turns found) ctx s
      (fun K ids t => R.Yields ctx K r (ids.map .identifier) t) := by
  induction turns generalizing s K found with
  | zero => exact .pure hfound
  | succ turns ih =>
    refine (identifier_derives.after hfound).bind fun K id t _ hid => ?_
    refine (eat_yields .comma hid.concat_node).bind fun K _ u _ hu => ?_
    exact .ite (fun _ => ih hu) (fun _ => .pure hu)

theorem parameterNames_derives :
    Derives R ∅ parameterNames ctx s
      (fun K ids t => R.Yields ctx K s (ids.map .identifier) t) := by
  refine .ask (·.isPunctuator .rParen) (fun _ _ => rfl) (fun _ => rfl) ?_
  dsimp only
  refine .ite (fun _ => ?_) (fun _ => .askContext rfl ?_)
  · exact .skip (expectPunctuator_takes .rParen) (.refl ctx)
      fun hF => .pure hF
  · refine (parameterNamesFrom_derives _ (.refl _)).bind
      fun K ids t _ hids => ?_
    exact .skip (expectPunctuator_takes .rParen) hids fun hF => .pure hF

theorem optionalIdentifier_derives :
    Derives R ∅ optionalIdentifier ctx s
      (fun K id? t => R.Yields ctx K s (id?.toList.map .identifier) t) := by
  refine .ask (fun t => decide (t.kind = .identifier)) (fun _ _ => rfl)
    (fun _ => rfl) (.ite (fun _ => ?_) (fun _ => .pure (.refl _)))
  exact identifier_derives.bind fun K id t _ hid => .pure hid

/-! ## Functions -/

variable {g : Grammar} (hg : g.Derives R)

include hg

/-- **A function**, behind what was read before. -/
theorem functionExpression_derives (isAsync : Bool) (start : Nat) :
    Derives R ∅ (functionExpression g isAsync start) ctx s
      (fun K e t => R.Yields ctx K s [.expression e] t) := by
  refine .skip (expectKeyword_takes .kwFunction) (.refl ctx)
    fun hF => ?_
  refine (eat_yields .star hF).bind fun K isGenerator t _ hF => ?_
  refine (optionalIdentifier_derives.after hF).bind fun K id? u _ hF => ?_
  refine ((parameterList_derives hg).after hF).bind
    fun K params v _ hF => ?_
  refine (hg.block.after hF).bind fun K body w _ hF => .span ?_
  have hf : R.Yields ctx K s
      [.function ⟨id?, params, body, isAsync, w.spanFrom start⟩] w :=
    .wrap hF rfl (fun _ => rfl) rfl rfl
  cases isGenerator with
  | true => exact .pure (.wrap hf rfl (fun _ => rfl) rfl rfl)
  | false => exact .pure (.wrap hf rfl (fun _ => rfl) rfl rfl)

/-! ## Methods -/

omit hg

theorem modifier_yields (word : String) (hF : R.Yields ctx K r F s) :
    Derives R K (liftM (modifier word)) ctx s
      (fun K _ t => R.Yields ctx K r F t) := by
  unfold modifier
  simp only [lift_bind, lift_ite, lift_discard]
  refine .ask (·.isWord word) (fun _ _ => rfl) (fun _ => rfl) ?_
  cases hword : s.current.isWord word with
  | false => exact .congr (q := pure false) rfl (fun _ _ _ => rfl) (.pure hF)
  | true =>
    refine .peek (isSlash_of_isWord hword) (fun _ => rfl)
      (.ite (fun _ => ?_) (fun _ => .pure hF))
    exact .pass hF (isEof_of_isWord hword) fun hF => .pure hF

theorem methodKind_yields (hF : R.Yields ctx K r F s) :
    Derives R K (liftM methodKind) ctx s
      (fun K _ t => R.Yields ctx K r F t) := by
  unfold methodKind
  simp only [lift_bind, lift_ite]
  refine (eat_yields .star hF).bind fun K _ t _ hF => ?_
  refine .ite (fun _ => .pure hF) (fun _ => ?_)
  refine (modifier_yields "get" hF).bind fun K _ u _ hF => ?_
  refine .ite (fun _ => .pure hF) (fun _ => ?_)
  refine (modifier_yields "set" hF).bind fun K _ v _ hF => ?_
  exact .ite (fun _ => .pure hF) (fun _ => .pure hF)

theorem methodName_derives :
    Derives R ∅ methodName ctx s
      (fun K id t => R.Yields ctx K s [.identifier id] t) :=
  .current (fun _ => rfl)
    (.ite (fun _ => propertyName_derives) (fun _ => unexpected_derives _))

include hg

/-- **A method**, with the words in front of its name. -/
theorem method_derives (isStatic : Bool) (start : Nat) :
    Derives R ∅ (method g isStatic start) ctx s
      (fun K m t => R.Yields ctx K s [.method m] t) := by
  refine (modifier_yields "async" (.refl ctx)).bind
    fun K isAsync t _ hF => ?_
  refine (methodKind_yields hF).bind fun K kind u _ hF => ?_
  refine (methodName_derives.after hF).bind fun K key v _ hF => ?_
  refine ((parameterList_derives hg).after hF).bind
    fun K params w _ hF => ?_
  refine (hg.block.after hF).bind fun K body x _ hF => ?_
  exact .span (.pure (.wrap hF rfl (fun _ => rfl) rfl rfl))

theorem classMethodsFrom_derives (turns : Nat) {found : List Method}
    (hfound : R.Yields ctx K r (found.reverse.map .method) s) :
    Derives R K (classMethodsFrom g turns found) ctx s
      (fun K ms t => R.Yields ctx K r (ms.map .method) t) := by
  induction turns generalizing s K found with
  | zero => exact .pure hfound
  | succ turns ih =>
    refine .current (fun _ => rfl) (.ite (fun _ => .pure hfound)
      (fun _ => .here ?_))
    refine (modifier_yields "static" hfound).bind
      fun K isStatic t _ hF => ?_
    refine ((method_derives hg isStatic _).after hF).bind
      fun K m u _ hF => ?_
    refine (discard_eat_yields .semicolon hF.concat_node).bind
      fun K _ v _ hF => ?_
    exact ih hF

theorem classMethods_derives :
    Derives R ∅ (classMethods g) ctx s
      (fun K ms t => R.Yields ctx K s (ms.map .method) t) :=
  .askContext rfl (classMethodsFrom_derives hg _ (.refl _))

/-! ## Classes -/

omit hg in
theorem className_derives (mayBeUnnamed : Bool) :
    Derives R ∅ (className mayBeUnnamed) ctx s
      (fun K id? t => R.Yields ctx K s (id?.toList.map .identifier) t) := by
  refine .ite (fun _ => optionalIdentifier_derives) (fun _ => ?_)
  exact identifier_derives.bind fun K id t _ hid => .pure hid

theorem classParent_derives :
    Derives R ∅ (classParent g) ctx s
      (fun K e? t => R.Yields ctx K s (e?.toList.map .expression) t) := by
  refine .ask (·.isKeyword .kwExtends) (fun _ _ => rfl) (fun _ => rfl)
    (.ite (fun h => ?_) (fun _ => .pure (.refl _)))
  refine .pass (.refl ctx) (isEof_of_isKeyword h) fun hF => ?_
  exact ((hg.expression .call).after hF).bind
    fun K e t _ hF => .pure hF

/-- **A class.** -/
theorem classDefinition_derives (mayBeUnnamed : Bool) :
    Derives R ∅ (classDefinition g mayBeUnnamed) ctx s
      (fun K c t => R.Yields ctx K s [.classDef c] t) := by
  refine .take (expectKeyword_takes .kwClass) (fun _ => rfl)
    fun heof => ?_
  have hF : R.Yields ctx ∅ s [] (s.bump root) := .token heof
  refine ((className_derives mayBeUnnamed).after hF).bind
    fun K id? t _ hF => ?_
  refine ((classParent_derives hg).after hF).bind
    fun K parent? u _ hF => ?_
  refine .skip (expectPunctuator_takes .lBrace) hF fun hF => ?_
  refine (hg.methods.behind hF).bind fun K methods v _ hF => ?_
  refine .skip (expectPunctuator_takes .rBrace) hF fun hF => ?_
  exact .span (.pure (.wrap hF rfl (fun _ => rfl) rfl rfl))

end ScriptTree.Parse

namespace ScriptTree.Parse

open ScriptTree.Action State

variable {root ctx ctx' : Context} {R : Replay root} {K : Set Mark}
  {r s : State} {F : List Node} {g : Grammar} {β : Type}

/-! ## Literals -/

theorem regexLiteral_derives (heof : s.current.isEof = false) :
    Derives R ∅ regexLiteral ctx s
      (fun K l t => R.Yields ctx K s [.literal l] t) :=
  .current (fun _ => rfl) (literal_derives _ heof)

/-- **A slash is read again** behind what was read before. -/
theorem Derives.rescan {f : PUnit → Parse β}
    {Q : Set Mark → β → State → Prop}
    (hslash : s.current.kind = .punctuator .slash
      ∨ s.current.kind = .punctuator .slashEq)
    (hF : R.Yields ctx' K r F s)
    (hf : s.Reached root → R.Yields ctx' K r F (s.rescanRegex root) →
      Derives R K (f ⟨⟩) ctx (s.rescanRegex root) Q) :
    Derives R K (read >>= fun c => modify (·.rescanRegex c) >>= f) ctx s
      Q := by
  intro hctx hs b u hrun
  have hact : Acts root s (s.rescanRegex root) := .single (.rescan hslash)
  have hrun : f ⟨⟩ ctx (s.rescanRegex ctx) = (.ok b, u) := hrun
  rw [rescanRegex_congr hctx] at hrun
  obtain ⟨htu, K', hK, hQ, hsame⟩ :=
    hf hs (hF.past hact (.rescan hslash)) hctx (hs.acts hact) b u hrun
  refine ⟨hact.trans htu, K', hK, hQ, fun hfits hclear s' hs' => ?_⟩
  obtain ⟨u', hu', hend⟩ := hsame hfits hclear _
    (R.rescan hs' hslash (R.fits_of_acts htu hfits))
  refine ⟨u', ?_, hend⟩
  show f ⟨⟩ (R.reflect ctx) (s'.rescanRegex (R.reflect ctx)) = _
  rw [rescanRegex_congr (R.within_image hctx)]
  exact hu'

/-- **A slash read again** is a regular expression. -/
theorem rescannedRegex_derives
    (hslash : s.current.kind = .punctuator .slash
      ∨ s.current.kind = .punctuator .slashEq) :
    Derives R ∅ rescannedRegex ctx s
      (fun K l t => R.Yields ctx K s [.literal l] t) := by
  refine .rescan hslash (.refl ctx) fun hs hF => ?_
  have hkind := (rescanRegex_good hs.good hslash).2.2
  exact (regexLiteral_derives
    (isEof_eq_false hkind (fun h => nomatch h))).after hF

/-! ## Arrow functions -/

variable (hg : g.Derives R)

include hg

/-- **An arrow function**, behind its parameters. -/
theorem arrowFunction_derives (isAsync : Bool) (params : List Identifier)
    (start : Nat) (hF : R.Yields ctx K r (params.map .identifier) s) :
    Derives R K (arrowFunction g isAsync params start) ctx s
      (fun K e t => R.Yields ctx K r [.expression e] t) := by
  refine .skip (expectPunctuator_takes .arrow) hF fun hF => ?_
  refine .ask (·.isPunctuator .lBrace) (fun _ _ => rfl) (fun _ => rfl) ?_
  -- A body of either kind ends the function.
  have hend : ∀ K (body : ArrowBody) (u : State), Acts root (s.bump root) u →
      R.Yields ctx K r (params.map .identifier ++ [body.part]) u →
      Derives R K (do
          let span ← liftM (spanFrom start)
          pure (Expression.arrow isAsync params body span)) ctx u
        (fun K e v => R.Yields ctx K r [.expression e] v) :=
    fun K body u _ hF => .span (.pure (.wrap hF rfl (fun _ => rfl) rfl rfl))
  dsimp only
  refine .ite (fun _ => ?_) (fun _ => ?_)
  · exact Derives.bind (.map (hg.block.after hF)) hend
  · exact Derives.bind (.map ((assignment_derives hg).after hF)) hend

omit hg in
/-- **What a word for an asynchronous function stands in front of** is the
same in both texts. -/
theorem asyncAhead_eq {x x' : Scanner} (h : R.Even x x') :
    x'.peek.isKeyword .kwFunction = x.peek.isKeyword .kwFunction
      ∧ (decide (x'.peek.kind = .identifier)
          && x'.peekSecond.isPunctuator .arrow)
        = (decide (x.peek.kind = .identifier)
          && x.peekSecond.isPunctuator .arrow)
      ∧ (x'.peek.isPunctuator .lParen
          && x'.nextSignificant.scanner.parameterListFollows)
        = (x.peek.isPunctuator .lParen
          && x.nextSignificant.scanner.parameterListFollows) := by
  have hnext : x.peek.Agrees x'.peek := (R.next h).1
  refine ⟨hnext.isKeyword_eq _, ?_, ?_⟩
  · rw [hnext.kind_eq]
    by_cases hname : x.peek.kind = .identifier
    · rw [Replay.peekSecond_eq h hname]
    · rw [decide_eq_false hname, Bool.false_and, Bool.false_and]
  · rw [hnext.isPunctuator_eq]
    cases hparen : x.peek.isPunctuator .lParen with
    | false => rfl
    | true =>
      rw [Replay.parameterListFollows_eq
        (Replay.behind h (of_decide_eq_true hparen) (by decide))]

/-- **A function behind the word for an asynchronous one**, or nothing. -/
theorem asyncFunction?_derives (h : s.current.isWord "async" = true) :
    Derives R ∅ (asyncFunction? g) ctx s
      (fun K e? t => R.Yields ctx K s (e?.toList.map .expression) t
        ∧ (e? = none → t = s)) := by
  have heof := isEof_of_isWord h
  refine .view (fun hfits s' hs' => ?_) ?_
  · obtain ⟨hfunction, hname, hparen⟩ :=
      asyncAhead_eq (R.even hs' hfits (isSlash_of_isWord h))
    dsimp only
    rw [(R.current hs').span_eq, hfunction, hname, hparen]
  dsimp only
  refine .ite (fun _ => ?_) (fun _ => .ite (fun _ => ?_) (fun _ => .ite
    (fun _ => ?_) (fun _ => .pure ⟨.refl _, fun _ => rfl⟩)))
  · refine .pass (.refl ctx) heof fun hF => ?_
    exact ((functionExpression_derives hg true _).after hF).bind
      fun K e u _ hF => .pure ⟨hF, fun h => nomatch h⟩
  · refine .pass (.refl ctx) heof fun hF => ?_
    refine (identifier_derives.after hF).bind fun K param u _ hF => ?_
    exact (arrowFunction_derives hg true [param] _ hF).bind
      fun K e v _ hF => .pure ⟨hF, fun h => nomatch h⟩
  · refine .pass (.refl ctx) heof fun hF => ?_
    refine ((parameterList_derives hg).after hF).bind
      fun K params u _ hF => ?_
    exact (arrowFunction_derives hg true params _ hF).bind
      fun K e v _ hF => .pure ⟨hF, fun h => nomatch h⟩

theorem nameOrArrow_derives (hslash : s.current.isSlash = false) :
    Derives R ∅ (nameOrArrow g) ctx s
      (fun K e t => R.Yields ctx K s [.expression e] t) := by
  refine .current (fun _ => rfl) (.peek hslash (fun _ => rfl)
    (.ite (fun _ => ?_) (fun _ => ?_)))
  · refine identifier_derives.bind fun K param t _ hF => ?_
    exact arrowFunction_derives hg false [param] _ hF
  · exact identifier_derives.bind
      fun K id t _ hF => .pure (.wrap hF rfl (fun _ => rfl) rfl rfl)

theorem nameOperand_derives (hname : s.current.kind = .identifier) :
    Derives R ∅ (nameOperand g) ctx s
      (fun K e t => R.Yields ctx K s [.expression e] t) := by
  have hslash : s.current.isSlash = false :=
    isSlash_eq_false hname (by decide) (by decide)
  refine .ask (·.isWord "async") (fun _ _ => rfl) (fun _ => rfl)
    (.ite (fun h => ?_) (fun _ => nameOrArrow_derives hg hslash))
  refine (asyncFunction?_derives hg h).bind fun K e? t _ ⟨hF, hnone⟩ => ?_
  cases e? with
  | some e => exact .pure hF
  | none =>
    obtain rfl := hnone rfl
    exact (nameOrArrow_derives hg hslash).after hF

/-! ## Brackets -/

theorem parenthesizedOrArrow_derives
    (hparen : s.current.kind = .punctuator .lParen) :
    Derives R ∅ (parenthesizedOrArrow g) ctx s
      (fun K e t => R.Yields ctx K s [.expression e] t) := by
  have hslash : s.current.isSlash = false :=
    isSlash_eq_false hparen (by decide) (by decide)
  refine .view (fun hfits s' hs' => ?_) ?_
  · dsimp only
    rw [(R.current hs').span_eq,
      Replay.parameterListFollows_eq (R.even hs' hfits hslash)]
  refine .ite (fun _ => ?_) (fun _ => ?_)
  · refine (parameterList_derives hg).bind fun K params t _ hF => ?_
    exact arrowFunction_derives hg false params _ hF
  · refine (condition_derives hg).bind fun K e t _ he => ?_
    exact .span (.pure (he.node rfl (fun h => nomatch h) rfl rfl))

theorem arrayElements_derives :
    Derives R ∅ (arrayElements g) ctx s
      (fun K es t => R.Yields ctx K s (es.map .expression) t) := by
  refine (separated_derives (fun _ => assignment_derives hg)
    (fun _ => assignment_accounts hg.gathers) _ _).mono
    (fun K es t _ h => ?_)
  rwa [← List.map_eq_flatMap] at h

/-- **An array.** -/
theorem arrayLiteral_derives :
    Derives R ∅ (arrayLiteral g) ctx s
      (fun K e t => R.Yields ctx K s [.expression e] t) := by
  refine .take (expectPunctuator_takes .lBracket) (fun _ => rfl)
    fun hopener => ?_
  refine hg.elements.bind fun K elements u _ helements => ?_
  refine .takeOff (expectPunctuator_takes .rBracket) fun hcloser => ?_
  have harray : R.Encloses ctx.inBrackets K s (elements.map .expression)
      (u.bump root) := ⟨hopener, u, hcloser, rfl, helements⟩
  exact .span (.pure (harray.node rfl (fun h => nomatch h) rfl rfl))

/-- **A key with the value behind it.** -/
theorem pairWith_derives (key : PropertyKey) (start : Nat)
    (hF : R.Yields ctx K r [key.part] s) :
    Derives R K (pairWith g key start) ctx s
      (fun K m t => R.Yields ctx K r m.parts t) := by
  refine .skip (expectPunctuator_takes .colon) hF fun hF => ?_
  exact ((assignment_derives hg).after hF).bind
    fun K value u _ hF => .pure hF

/-- **A member of an object.** -/
theorem objectMember_derives :
    Derives R ∅ (objectMember g) ctx s
      (fun K m t => R.Yields ctx K s m.parts t) := by
  have hmethod : Derives R ∅ (do
      let m ← method g false s.here
      pure (ObjectMember.method m)) ctx s
      (fun K m t => R.Yields ctx K s m.parts t) :=
    (method_derives hg false _).bind fun K m t _ hF => .pure hF
  have hname : s.current.isSlash = false → Derives R ∅ (do
      let next ← liftM peek
      if next.isPunctuator .colon = true then
        pairWith g (.identifier (← propertyName)) s.here
      else return .method (← method g false s.here)) ctx s
      (fun K m t => R.Yields ctx K s m.parts t) := by
    intro hslash
    refine .peek hslash (fun _ => rfl)
      (.ite (fun _ => ?_) (fun _ => hmethod))
    exact propertyName_derives.bind fun K id t _ hF =>
      pairWith_derives hg (.identifier id) _ hF
  refine .current (fun _ => rfl) ?_
  dsimp only
  split
  case h_1 hk =>
    exact (literal_derives _ (isEof_eq_false hk (by simp))).bind
      fun K l t _ hF => pairWith_derives hg (.string l) _ hF
  case h_2 hk =>
    exact (literal_derives _ (isEof_eq_false hk (by simp))).bind
      fun K l t _ hF => pairWith_derives hg (.number l) _ hF
  case h_3 => exact hmethod
  case h_4 hk =>
    exact hname (isSlash_eq_false hk (by decide) (by decide))
  case h_5 k hk =>
    exact hname (isSlash_eq_false hk (by simp)
      (by simp))
  case h_6 => exact unexpected_derives _

theorem objectMembers_derives :
    Derives R ∅ (objectMembers g) ctx s
      (fun K ms t => R.Yields ctx K s (ms.flatMap ObjectMember.parts) t) :=
  separated_derives (fun _ => objectMember_derives hg)
    (fun _ => objectMember_accounts hg.gathers) _ _

/-- **An object.** -/
theorem objectLiteral_derives :
    Derives R ∅ (objectLiteral g) ctx s
      (fun K e t => R.Yields ctx K s [.expression e] t) := by
  refine .reached fun hs => ?_
  refine .take (expectPunctuator_takes .lBrace) (fun _ => rfl)
    fun hopener => ?_
  refine hg.members.bind fun K members u hsu hmembers => ?_
  refine .takeOff (expectPunctuator_takes .rBrace) fun hcloser => ?_
  have hobject : R.Encloses ctx.inBrackets K s
      (members.flatMap ObjectMember.parts) (u.bump root) :=
    ⟨hopener, u, hcloser, rfl, hmembers⟩
  refine .span (.pureMarked (Set.subset_insert _ _)
    (.wrapFreed hobject.plain rfl (fun _ => rfl) rfl ?_))
  -- The object is all that was read.
  have hlt := hs.good.here_lt_stop hopener
  have hle := Acts.consumedTo_le (hsu.tail (.bump hcloser))
    (hs.acts (.single (.bump hopener))).good
  rw [bump_consumedTo] at hle
  refine List.forall_mem_singleton.2
    ⟨s.here, _, Set.mem_insert _ _, Nat.le_refl _, Nat.max_le.2 ⟨?_, ?_⟩⟩
  · exact Nat.le_refl _
  · exact (hlt.trans_le hle).le

/-! ## Any operand -/

omit hg in
theorem superOperand_derives (heof : s.current.isEof = false) :
    Derives R ∅ superOperand ctx s
      (fun K e t => R.Yields ctx K s [.expression e] t) := by
  refine .advance heof (fun _ => rfl) (.current (fun _ => rfl)
    (.ite (fun _ => .pure ?_) (fun _ => unexpected_derives _)))
  exact .wrap (.token heof) rfl (fun _ => rfl) rfl rfl

omit hg in
/-- A literal as an operand. -/
theorem literalOperand_derives {p : Parse Literal}
    (hp : Derives R ∅ p ctx s
      (fun K l t => R.Yields ctx K s [.literal l] t)) :
    Derives R ∅ (p >>= fun l => pure (.literal l)) ctx s
      (fun K e t => R.Yields ctx K s [.expression e] t) :=
  hp.bind (fun _ _ _ _ hF => .pure (.wrap hF rfl (fun _ => rfl) rfl rfl))

/-- **What a reserved word begins.** -/
theorem keywordOperand_derives {k : Keyword}
    (heof : s.current.isEof = false) :
    Derives R ∅ (keywordOperand g k) ctx s
      (fun K e t => R.Yields ctx K s [.expression e] t) := by
  have hliteral : ∀ kind : LiteralKind, Derives R ∅ (literal kind) ctx s
      (fun K l t => R.Yields ctx K s [.literal l] t) :=
    fun kind => literal_derives kind heof
  unfold keywordOperand
  split
  · exact .advance heof (fun _ => rfl) (.pure
      (.wrap (.token heof) rfl (fun _ => rfl) rfl rfl))
  · exact superOperand_derives heof
  · exact literalOperand_derives (hliteral _)
  · exact literalOperand_derives (hliteral _)
  · exact literalOperand_derives (hliteral _)
  · exact literalOperand_derives (hliteral _)
  · exact .here (functionExpression_derives hg false _)
  · exact (classDefinition_derives hg false).bind
      fun K c t _ hF => .pure (.wrap hF rfl (fun _ => rfl) rfl rfl)
  · exact unexpected_derives _

/-- **An operand without operators.** -/
theorem primary_derives :
    Derives R ∅ (primary g) ctx s
      (fun K e t => R.Yields ctx K s [.expression e] t) := by
  have hliteral : ∀ {kind : LiteralKind} {tokenKind : TokenKind},
      s.current.kind = tokenKind → tokenKind ≠ .eof →
      Derives R ∅ (literal kind) ctx s
        (fun K l t => R.Yields ctx K s [.literal l] t) :=
    fun hk hne => literal_derives _ (isEof_eq_false hk hne)
  refine .current (fun _ => rfl) ?_
  split
  case h_1 hk => exact nameOperand_derives hg hk
  case h_2 hk =>
    exact literalOperand_derives (hliteral hk (by simp))
  case h_3 hk =>
    exact literalOperand_derives (hliteral hk (by simp))
  case h_4 hk =>
    exact literalOperand_derives (hliteral hk (by simp))
  case h_5 hk =>
    exact literalOperand_derives (regexLiteral_derives
      (isEof_eq_false hk (by simp)))
  case h_6 hk =>
    exact literalOperand_derives (rescannedRegex_derives (.inl hk))
  case h_7 hk =>
    exact literalOperand_derives (rescannedRegex_derives (.inr hk))
  case h_8 hk => exact parenthesizedOrArrow_derives hg hk
  case h_9 => exact arrayLiteral_derives hg
  case h_10 => exact objectLiteral_derives hg
  case h_11 k hk =>
    exact keywordOperand_derives hg
      (isEof_eq_false hk (by simp))
  case h_12 => exact unexpected_derives _

end ScriptTree.Parse
