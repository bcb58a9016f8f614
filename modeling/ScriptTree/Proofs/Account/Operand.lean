import ScriptTree.Parse.Callable
import ScriptTree.Parse.Operand
import ScriptTree.Proofs.Account.Grammar
import ScriptTree.Proofs.Parse.Operand

/-!
# Operands and their tokens

Functions, classes and methods come first, then all else an operand may be.
A slash that is read again is spent as the regular expression it becomes,
and what is read ahead of an arrow function is not read.
-/

namespace ScriptTree.Parse

open ScriptTree.Action State

variable {root ctx : Context} {s : State}

/-! ## Names -/

theorem parameterNamesFrom_accounts (turns : Nat) {r : State}
    {found : List Identifier}
    (hfound : r.Gathers root (found.reverse.map .identifier) s) :
    Accounts root (parameterNamesFrom turns found) ctx s
      (fun ids t => r.Gathers root (ids.map .identifier) t) := by
  induction turns generalizing s found with
  | zero => exact .pure hfound
  | succ turns ih =>
    refine identifier_accounts.bind fun id t _ hid => ?_
    refine (Accounts.lift (eat_accounts .comma)).bind fun _ u _ hu => ?_
    have hfound := (hfound.concat_node hid).later hu
    exact .ite (fun _ => ih hfound) (fun _ => .pure hfound)

theorem parameterNames_accounts :
    Accounts root parameterNames ctx s
      (fun ids t => s.Gathers root (ids.map .identifier) t) := by
  refine .look (s.current.isPunctuator .rParen) rfl ?_
  dsimp only
  refine .ite (fun _ => .look [] rfl ?_) (fun _ => .look ctx rfl ?_)
  · refine (expectPunctuator_accounts .rParen).discard.bind
      fun _ t _ ht => ?_
    exact .pure ht
  · refine (parameterNamesFrom_accounts _ (.refl root s)).bind
      fun ids t _ hids => ?_
    refine (expectPunctuator_accounts .rParen).discard.bind
      fun _ u _ hu => ?_
    exact .pure (hids.later hu)

theorem optionalIdentifier_accounts :
    Accounts root optionalIdentifier ctx s
      (fun id? t => s.Gathers root (id?.toList.map .identifier) t) := by
  refine .look (decide (s.current.kind = .identifier)) rfl
    (.ite (fun _ => ?_) (fun _ => .pure (.refl root s)))
  exact identifier_accounts.bind fun id t _ hid => .pure hid

/-! ## Functions -/

variable {g : Grammar} (hg : g.Gathers root)

include hg

/-- **A function.** The words and marks around its parts are not in the
tree. -/
theorem functionExpression_accounts (isAsync : Bool) (start : Nat) :
    Accounts root (functionExpression g isAsync start) ctx s
      (fun e t => s.Gathers root [.expression e] t) := by
  refine (expectKeyword_accounts _).discard.bind fun _ t _ ht => ?_
  refine (Accounts.lift (eat_accounts .star)).bind
    fun isGenerator u _ hu => ?_
  refine optionalIdentifier_accounts.bind fun id? v _ hid => ?_
  refine (parameterList_accounts hg).bind fun params w _ hparams => ?_
  refine hg.block.bind fun body x _ hbody => ?_
  refine .look (x.spanFrom start) rfl ?_
  have hf : s.Gathers root
      [.function ⟨id?, params, body, isAsync, x.spanFrom start⟩] x :=
    .wrap ((ht.trans hu).trans ((hid.trans hparams).trans hbody)) rfl
  cases isGenerator with
  | true => exact .pure (.wrap hf rfl)
  | false => exact .pure (.wrap hf rfl)

/-! ## Methods -/

omit hg

theorem modifier_accounts {word : String} (hword : word ∈ softWords) :
    Action.Accounts root (modifier word) ctx s
      (fun _ t => s.Gathers root [] t) := by
  refine .look (s.current.isWord word) rfl (.look s.scanner.peek rfl ?_)
  refine .ite (fun h => ?_) (fun _ => .pure (.refl root s))
  have hsilent :=
    Token.isSilent_of_isWord (Bool.and_eq_true_iff.1 h).1 hword
  exact (pass_accounts hsilent).bind fun _ _ _ ht => .pure ht

theorem methodKind_accounts :
    Action.Accounts root methodKind ctx s
      (fun _ t => s.Gathers root [] t) := by
  refine (eat_accounts .star).bind fun _ t _ ht => ?_
  refine .ite (fun _ => .pure ht) (fun _ => ?_)
  refine (modifier_accounts (by decide)).bind fun _ u _ hu => ?_
  have hu := ht.trans hu
  refine .ite (fun _ => .pure hu) (fun _ => ?_)
  refine (modifier_accounts (by decide)).bind fun _ v _ hv => ?_
  have hv := hu.trans hv
  exact .ite (fun _ => .pure hv) (fun _ => .pure hv)

theorem methodName_accounts :
    Accounts root methodName ctx s
      (fun id t => s.Gathers root [.identifier id] t) :=
  .look s.current rfl
    (.ite (fun _ => propertyName_accounts) (fun _ => unexpected_accounts _))

include hg

/-- **A method.** The words in front of its name are not in the tree. -/
theorem method_accounts (isStatic : Bool) (start : Nat) :
    Accounts root (method g isStatic start) ctx s
      (fun m t => s.Gathers root [.method m] t) := by
  refine (Accounts.lift (modifier_accounts (by decide))).bind
    fun isAsync t _ ht => ?_
  refine (Accounts.lift methodKind_accounts).bind fun kind u _ hu => ?_
  refine methodName_accounts.bind fun key v _ hkey => ?_
  refine (parameterList_accounts hg).bind fun params w _ hparams => ?_
  refine hg.block.bind fun body x _ hbody => ?_
  refine .look (x.spanFrom start) rfl (.pure (.wrap ?_ rfl))
  exact (ht.trans hu).trans (hkey.trans (hparams.trans hbody))

theorem classMethodsFrom_accounts (turns : Nat) {r : State}
    {found : List Method}
    (hfound : r.Gathers root (found.reverse.map .method) s) :
    Accounts root (classMethodsFrom g turns found) ctx s
      (fun ms t => r.Gathers root (ms.map .method) t) := by
  induction turns generalizing s found with
  | zero => exact .pure hfound
  | succ turns ih =>
    refine .look s.current rfl (.ite (fun _ => .pure hfound) (fun _ => ?_))
    refine .look s.here rfl ?_
    refine (Accounts.lift (modifier_accounts (by decide))).bind
      fun isStatic t _ ht => ?_
    refine (method_accounts hg isStatic _).bind fun m u _ hm => ?_
    refine (Accounts.lift (eat_accounts .semicolon).discard).bind
      fun _ v _ hv => ?_
    exact ih ((hfound.concat_node (ht.trans hm)).later hv)

theorem classMethods_accounts :
    Accounts root (classMethods g) ctx s
      (fun ms t => s.Gathers root (ms.map .method) t) :=
  .look ctx rfl (classMethodsFrom_accounts hg _ (.refl root s))

/-! ## Classes -/

omit hg in
theorem className_accounts (mayBeUnnamed : Bool) :
    Accounts root (className mayBeUnnamed) ctx s
      (fun id? t => s.Gathers root (id?.toList.map .identifier) t) := by
  refine .ite (fun _ => optionalIdentifier_accounts) (fun _ => ?_)
  exact identifier_accounts.bind fun id t _ hid => .pure hid

theorem classParent_accounts :
    Accounts root (classParent g) ctx s
      (fun e? t => s.Gathers root (e?.toList.map .expression) t) := by
  refine .look (s.current.isKeyword .kwExtends) rfl
    (.ite (fun h => ?_) (fun _ => .pure (.refl root s)))
  refine (Accounts.lift (pass_accounts
    (Token.isSilent_of_isKeyword h))).bind fun _ t _ ht => ?_
  exact (hg.expression .call).bind fun e u _ he => .pure (ht.trans he)

/-- **A class.** -/
theorem classDefinition_accounts (mayBeUnnamed : Bool) :
    Accounts root (classDefinition g mayBeUnnamed) ctx s
      (fun c t => s.Gathers root [.classDef c] t) := by
  refine (expectKeyword_accounts _).bind fun opening t _ ht => ?_
  refine (className_accounts mayBeUnnamed).bind fun id? u _ hid => ?_
  refine (classParent_accounts hg).bind fun parent? v _ hparent => ?_
  refine (expectPunctuator_accounts .lBrace).discard.bind
    fun _ w _ hw => ?_
  refine hg.methods.bind fun methods x _ hmethods => ?_
  refine (expectPunctuator_accounts .rBrace).discard.bind
    fun _ y _ hy => ?_
  refine .look (y.spanFrom opening.span.start) rfl (.pure (.wrap ?_ rfl))
  exact ht.trans ((((hid.trans hparent).later hw).trans hmethods).later hy)

end ScriptTree.Parse

namespace ScriptTree.Parse

open ScriptTree.Action State

variable {root ctx : Context} {s : State} {g : Grammar}

/-! ## Literals -/

theorem regexLiteral_accounts (hkind : s.current.kind = .regex) :
    Accounts root regexLiteral ctx s
      (fun l t => s.Gathers root [.literal l] t) := by
  refine .look s.current rfl (literal_accounts
    (isEof_eq_false hkind (fun h => nomatch h)) (.inl ?_))
  rw [hkind]
  rfl

/-- **A slash read again** is a regular expression. -/
theorem rescannedRegex_accounts
    (hslash : s.current.kind = .punctuator .slash
      ∨ s.current.kind = .punctuator .slashEq) :
    Accounts root rescannedRegex ctx s
      (fun l t => s.Gathers root [.literal l] t) := by
  refine .look ctx rfl ?_
  refine Accounts.bind (Q := fun _ t => s.Gathers root [] t
    ∧ t.current.kind = .regex) ?_ (fun _ t _ h => ?_)
  · intro hctx hs
    show Acts root s (s.rescanRegex ctx)
      ∧ (∀ _, _ → s.Gathers root [] (s.rescanRegex ctx) ∧ _) ∧ _
    rw [rescanRegex_congr hctx]
    have hact : Acts root s (s.rescanRegex root) := .single (.rescan hslash)
    refine ⟨hact, fun _ _ => ⟨.of_taken_eq hact ?_, ?_⟩,
      fun _ h => nomatch h⟩
    · exact (List.cons.inj (rescanRegex_known root s)).2
    · exact (rescanRegex_good hs.good hslash).2.2
  · exact (regexLiteral_accounts h.2).mono (fun _ _ _ hl => h.1.trans hl)

/-! ## Arrow functions -/

variable (hg : g.Gathers root)

include hg

/-- **An arrow function**, its parameters aside. -/
theorem arrowFunction_accounts (isAsync : Bool) (params : List Identifier)
    (start : Nat) {r : State}
    (hparams : r.Gathers root (params.map .identifier) s) :
    Accounts root (arrowFunction g isAsync params start) ctx s
      (fun e t => r.Gathers root [.expression e] t) := by
  refine (expectPunctuator_accounts .arrow).discard.bind
    fun _ t _ ht => ?_
  refine .look (t.current.isPunctuator .lBrace) rfl ?_
  -- A body of either kind ends the function.
  have hend : ∀ body u, Acts root t u →
      t.Gathers root [ArrowBody.part body] u →
      Accounts root (do
          let span ← liftM (spanFrom start)
          pure (Expression.arrow isAsync params body span)) ctx u
        (fun e v => r.Gathers root [.expression e] v) := by
    intro body u _ hbody
    refine .look (u.spanFrom start) rfl (.pure (.wrap ?_ rfl))
    exact (hparams.later ht).trans hbody
  dsimp only
  refine .ite (fun _ => ?_) (fun _ => ?_)
  · exact Accounts.bind (.map hg.block) hend
  · exact Accounts.bind (.map (assignment_accounts hg)) hend

/-- **A function behind the word for an asynchronous one**, which is not in
the tree. -/
theorem asyncFunction?_accounts (h : s.current.isWord "async" = true) :
    Accounts root (asyncFunction? g) ctx s
      (fun e? t => s.Gathers root (e?.toList.map .expression) t) := by
  have hpass : Action.Accounts root (discard advance) ctx s
      (fun _ t => s.Gathers root [] t) :=
    pass_accounts (Token.isSilent_of_isWord h (by decide))
  refine .look s rfl ?_
  dsimp only
  refine .ite (fun _ => ?_) (fun _ => .ite (fun _ => ?_) (fun _ => .ite
    (fun _ => ?_) (fun _ => .pure (.refl root s))))
  · refine (Accounts.lift hpass).bind fun _ t _ ht => ?_
    refine (functionExpression_accounts hg true _).bind fun e u _ he => ?_
    exact .pure (ht.trans he)
  · refine (Accounts.lift hpass).bind fun _ t _ ht => ?_
    refine identifier_accounts.bind fun param u _ hparam => ?_
    refine (arrowFunction_accounts hg true [param] _
      (ht.trans hparam)).bind fun e v _ he => ?_
    exact .pure he
  · refine (Accounts.lift hpass).bind fun _ t _ ht => ?_
    refine (parameterList_accounts hg).bind fun params u _ hparams => ?_
    refine (arrowFunction_accounts hg true params _
      (ht.trans hparams)).bind fun e v _ he => ?_
    exact .pure he

theorem nameOrArrow_accounts :
    Accounts root (nameOrArrow g) ctx s
      (fun e t => s.Gathers root [.expression e] t) := by
  refine .look s.current rfl (.look s.scanner.peek rfl ?_)
  refine .ite (fun _ => ?_) (fun _ => ?_)
  · refine identifier_accounts.bind fun param t _ hparam => ?_
    exact arrowFunction_accounts hg false [param] _ hparam
  · exact identifier_accounts.bind fun id t _ hid => .pure (.wrap hid rfl)

theorem nameOperand_accounts :
    Accounts root (nameOperand g) ctx s
      (fun e t => s.Gathers root [.expression e] t) := by
  refine .look (s.current.isWord "async") rfl
    (.ite (fun h => ?_) (fun _ => nameOrArrow_accounts hg))
  refine (asyncFunction?_accounts hg h).bind fun e? t _ he => ?_
  cases e? with
  | some e => exact .pure he
  | none =>
    exact (nameOrArrow_accounts hg).mono (fun _ _ _ h => he.trans h)

/-! ## Brackets -/

theorem parenthesizedOrArrow_accounts :
    Accounts root (parenthesizedOrArrow g) ctx s
      (fun e t => s.Gathers root [.expression e] t) := by
  refine .look s rfl (.ite (fun _ => ?_) (fun _ => ?_))
  · refine (parameterList_accounts hg).bind fun params t _ hparams => ?_
    exact arrowFunction_accounts hg false params _ hparams
  · refine (condition_accounts hg).bind fun e t _ he => ?_
    exact .look (t.spanFrom s.here) rfl (.pure (.wrap he rfl))

theorem arrayElements_accounts :
    Accounts root (arrayElements g) ctx s
      (fun es t => s.Gathers root (es.map .expression) t) := by
  refine (separated_accounts (fun _ => assignment_accounts hg) _ _).mono
    (fun es t _ h => ?_)
  rwa [← List.map_eq_flatMap] at h

/-- **An array.** -/
theorem arrayLiteral_accounts :
    Accounts root (arrayLiteral g) ctx s
      (fun e t => s.Gathers root [.expression e] t) := by
  refine (expectPunctuator_accounts _).bind fun opening t _ ht => ?_
  refine hg.elements.bind fun elements u _ helements => ?_
  refine (expectPunctuator_accounts .rBracket).discard.bind
    fun _ v _ hv => ?_
  refine .look (v.spanFrom opening.span.start) rfl (.pure (.wrap ?_ rfl))
  exact ht.trans (helements.later hv)

/-- **A key with the value behind it.** -/
theorem pairWith_accounts (key : PropertyKey) (start : Nat) {r : State}
    (hkey : r.Gathers root [key.part] s) :
    Accounts root (pairWith g key start) ctx s
      (fun m t => r.Gathers root m.parts t) := by
  refine (expectPunctuator_accounts .colon).discard.bind
    fun _ t _ ht => ?_
  refine (assignment_accounts hg).bind fun value u _ hvalue => ?_
  exact .pure ((hkey.later ht).trans hvalue)

/-- **A member of an object.** -/
theorem objectMember_accounts :
    Accounts root (objectMember g) ctx s
      (fun m t => s.Gathers root m.parts t) := by
  refine .look s.current rfl ?_
  have hmethod : Accounts root (do
      let m ← method g false s.here
      pure (ObjectMember.method m)) ctx s
      (fun m t => s.Gathers root m.parts t) :=
    (method_accounts hg false _).bind fun m t _ hm => .pure hm
  have hname : Accounts root (do
      let next ← liftM peek
      if next.isPunctuator .colon = true then
        pairWith g (.identifier (← propertyName)) s.here
      else return .method (← method g false s.here)) ctx s
      (fun m t => s.Gathers root m.parts t) := by
    refine .look s.scanner.peek rfl (.ite (fun _ => ?_) (fun _ => hmethod))
    refine propertyName_accounts.bind fun id t _ hid => ?_
    exact pairWith_accounts hg (.identifier id) _ hid
  have hliteral : ∀ {kind : LiteralKind} {mk : Literal → PropertyKey},
      (∀ l, (mk l).part = .literal l) → s.current.isEof = false →
      kind.Suits s.current → Accounts root (do
        let l ← literal kind
        pairWith g (mk l) s.here) ctx s
        (fun m t => s.Gathers root m.parts t) := by
    intro kind mk hmk heof hkind
    refine (literal_accounts heof hkind).bind fun l t _ hl => ?_
    refine pairWith_accounts hg (mk l) _ ?_
    rw [hmk]
    exact hl
  dsimp only
  split
  · rename_i hk
    exact hliteral (fun _ => rfl) (isEof_eq_false hk (fun h => nomatch h))
      (.inl (by rw [hk]; rfl))
  · rename_i hk
    exact hliteral (fun _ => rfl) (isEof_eq_false hk (fun h => nomatch h))
      (.inl (by rw [hk]; rfl))
  · exact hmethod
  · exact hname
  · exact hname
  · exact unexpected_accounts _

theorem objectMembers_accounts :
    Accounts root (objectMembers g) ctx s
      (fun ms t => s.Gathers root (ms.flatMap ObjectMember.parts) t) :=
  separated_accounts (fun _ => objectMember_accounts hg) _ _

/-- **An object.** -/
theorem objectLiteral_accounts :
    Accounts root (objectLiteral g) ctx s
      (fun e t => s.Gathers root [.expression e] t) := by
  refine (expectPunctuator_accounts _).bind fun opening t _ ht => ?_
  refine hg.members.bind fun members u _ hmembers => ?_
  refine (expectPunctuator_accounts .rBrace).discard.bind
    fun _ v _ hv => ?_
  refine .look (v.spanFrom opening.span.start) rfl (.pure (.wrap ?_ rfl))
  exact ht.trans (hmembers.later hv)

/-! ## Any operand -/

omit hg in
theorem superOperand_accounts (h : s.current.IsSilent) :
    Accounts root superOperand ctx s
      (fun e t => s.Gathers root [.expression e] t) := by
  refine (Accounts.lift (skip_accounts h)).bind fun token t _ ht => ?_
  refine .look t.current rfl (.ite (fun _ => ?_) (fun _ => ?_))
  · exact .pure (.wrap ht.2 rfl)
  · exact unexpected_accounts _

omit hg in
/-- A literal as an operand. -/
theorem literalOperand_accounts {p : Parse Literal}
    (hp : Accounts root p ctx s
      (fun l t => s.Gathers root [.literal l] t)) :
    Accounts root (p >>= fun l => pure (.literal l)) ctx s
      (fun e t => s.Gathers root [.expression e] t) :=
  hp.bind (fun _ _ _ h => .pure (.wrap h rfl))

/-- **What a reserved word begins.** A word that is a value is a literal,
although its token is not one. -/
theorem keywordOperand_accounts {k : Keyword}
    (hk : s.current.kind = .keyword k) :
    Accounts root (keywordOperand g k) ctx s
      (fun e t => s.Gathers root [.expression e] t) := by
  have hsilent := Token.isSilent_of_kind_keyword hk
  have hliteral : ∀ {kind : LiteralKind}, kind.word? = some k →
      Accounts root (literal kind) ctx s
        (fun l t => s.Gathers root [.literal l] t) := fun hkind =>
    literal_accounts hsilent.isEof_eq_false (.inr ⟨k, hkind, hk⟩)
  unfold keywordOperand
  split
  · refine (Accounts.lift (skip_accounts hsilent)).bind
      fun token t _ ht => ?_
    exact .pure (.wrap ht.2 rfl)
  · exact superOperand_accounts hsilent
  · exact literalOperand_accounts (hliteral rfl)
  · exact literalOperand_accounts (hliteral rfl)
  · exact literalOperand_accounts (hliteral rfl)
  · exact literalOperand_accounts (hliteral rfl)
  · exact .look s.here rfl (functionExpression_accounts hg false _)
  · exact (classDefinition_accounts hg false).bind
      fun c t _ hc => .pure (.wrap hc rfl)
  · exact unexpected_accounts _

/-- **An operand without operators.** -/
theorem primary_accounts :
    Accounts root (primary g) ctx s
      (fun e t => s.Gathers root [.expression e] t) := by
  have hliteral : ∀ {kind : LiteralKind} {tokenKind : TokenKind},
      s.current.kind = tokenKind → tokenKind ≠ .eof →
      kind.tokenKind? = some tokenKind → Accounts root (literal kind) ctx s
        (fun l t => s.Gathers root [.literal l] t) := fun hk hne hkind =>
    literal_accounts (isEof_eq_false hk hne) (.inl (by rw [hk]; exact hkind))
  refine .look s.current rfl ?_
  split
  case h_1 => exact nameOperand_accounts hg
  case h_2 hk =>
    exact literalOperand_accounts (hliteral hk (fun h => nomatch h) rfl)
  case h_3 hk =>
    exact literalOperand_accounts (hliteral hk (fun h => nomatch h) rfl)
  case h_4 hk =>
    exact literalOperand_accounts (hliteral hk (fun h => nomatch h) rfl)
  case h_5 hk => exact literalOperand_accounts (regexLiteral_accounts hk)
  case h_6 hk =>
    exact literalOperand_accounts (rescannedRegex_accounts (.inl hk))
  case h_7 hk =>
    exact literalOperand_accounts (rescannedRegex_accounts (.inr hk))
  case h_8 => exact parenthesizedOrArrow_accounts hg
  case h_9 => exact arrayLiteral_accounts hg
  case h_10 => exact objectLiteral_accounts hg
  case h_11 k hk => exact keywordOperand_accounts hg hk
  case h_12 => exact unexpected_accounts _

end ScriptTree.Parse
