import ScriptTree.Parse.Callable
import ScriptTree.Parse.Operand
import ScriptTree.Proofs.Paired.Grammar
import ScriptTree.Proofs.Parse.Operand

/-!
# Operands and their brackets

Parentheses, arrays and objects are nodes in brackets. The brackets around
parameters and around the methods of a class are those of no node; they are
closed all the same.
-/

namespace ScriptTree.Parse

open ScriptTree.Action State

variable {root ctx : Context} {r s : State}

/-! ## Names -/

theorem parameterNamesFrom_pairs (turns : Nat) {found : List Identifier}
    (hfound : r.Pairs (found.reverse.map .identifier) s) :
    Ensures root (parameterNamesFrom turns found) ctx s
      (fun ids t => r.Pairs (ids.map .identifier) t) := by
  induction turns generalizing s found with
  | zero => exact .pure hfound
  | succ turns ih =>
    refine identifier_pairs.bind fun id t _ hid => ?_
    refine (Ensures.lift (eat_pairs .comma rfl)).bind fun _ u _ hu => ?_
    have hfound := (hfound.concat_node hid).later hu
    exact .ite (fun _ => ih hfound) (fun _ => .pure hfound)

/-- **Names and the bracket behind them.** -/
theorem parameterNames_pairs :
    Ensures root parameterNames ctx s
      (fun ids t => s.Closes .rParen (ids.map .identifier) t) := by
  refine .look (s.current.isPunctuator .rParen) rfl ?_
  dsimp only
  refine .ite (fun _ => .look [] rfl ?_) (fun _ => .look ctx rfl ?_)
  · exact (close_pairs .rParen (.refl s)).bind fun _ t _ ht => .pure ht
  · refine (parameterNamesFrom_pairs _ (.refl s)).bind fun ids t _ hids => ?_
    exact (close_pairs .rParen hids).bind fun _ u _ hu => .pure hu

theorem optionalIdentifier_pairs :
    Ensures root optionalIdentifier ctx s
      (fun id? t => s.Pairs (id?.toList.map .identifier) t) := by
  refine .look (decide (s.current.kind = .identifier)) rfl
    (.ite (fun _ => ?_) (fun _ => .pure (.refl s)))
  exact identifier_pairs.bind fun id t _ hid => .pure hid

/-! ## Functions -/

variable {g : Grammar} (hg : g.Pairs root)

include hg

/-- **A function.** -/
theorem functionExpression_pairs (isAsync : Bool) (start : Nat) :
    Ensures root (functionExpression g isAsync start) ctx s
      (fun e t => s.Pairs [.expression e] t) := by
  refine (expectKeyword_pairs _).discard.bind fun _ t _ ⟨_, _, ht⟩ => ?_
  refine (Ensures.lift (eat_pairs .star rfl)).bind
    fun isGenerator u _ hu => ?_
  refine optionalIdentifier_pairs.bind fun id? v _ hid => ?_
  refine (parameterList_pairs hg).bind fun params w _ hparams => ?_
  refine hg.block.bind fun body x _ hbody => ?_
  refine .look (x.spanFrom start) rfl ?_
  have hf : s.Pairs
      [.function ⟨id?, params, body, isAsync, x.spanFrom start⟩] x :=
    .wrap ((ht.trans hu).trans ((hid.trans hparams).trans hbody)) rfl rfl
  cases isGenerator with
  | true => exact .pure (.wrap hf rfl rfl)
  | false => exact .pure (.wrap hf rfl rfl)

/-! ## Methods -/

omit hg

theorem modifier_pairs (word : String) :
    Action.Ensures root (modifier word) ctx s
      (fun _ t => s.Pairs [] t) := by
  refine .look (s.current.isWord word) rfl (.look s.scanner.peek rfl ?_)
  refine .ite (fun h => ?_) (fun _ => .pure (.refl s))
  exact (pass_pairs (isEof_of_atWord h)
    (isBracket_of_isWord (Bool.and_eq_true_iff.1 h).1)).bind
      fun _ _ _ ht => .pure ht

theorem methodKind_pairs :
    Action.Ensures root methodKind ctx s (fun _ t => s.Pairs [] t) := by
  refine (eat_pairs .star rfl).bind fun _ t _ ht => ?_
  refine .ite (fun _ => .pure ht) (fun _ => ?_)
  refine (modifier_pairs "get").bind fun _ u _ hu => ?_
  have hu := ht.trans hu
  refine .ite (fun _ => .pure hu) (fun _ => ?_)
  refine (modifier_pairs "set").bind fun _ v _ hv => ?_
  have hv := hu.trans hv
  exact .ite (fun _ => .pure hv) (fun _ => .pure hv)

theorem methodName_pairs :
    Ensures root methodName ctx s
      (fun id t => s.Pairs [.identifier id] t) :=
  .look s.current rfl
    (.ite (fun _ => propertyName_pairs) (fun _ => unexpected_ensures _))

include hg

/-- **A method.** -/
theorem method_pairs (isStatic : Bool) (start : Nat) :
    Ensures root (method g isStatic start) ctx s
      (fun m t => s.Pairs [.method m] t) := by
  refine (Ensures.lift (modifier_pairs "async")).bind
    fun isAsync t _ ht => ?_
  refine (Ensures.lift methodKind_pairs).bind fun kind u _ hu => ?_
  refine methodName_pairs.bind fun key v _ hkey => ?_
  refine (parameterList_pairs hg).bind fun params w _ hparams => ?_
  refine hg.block.bind fun body x _ hbody => ?_
  refine .look (x.spanFrom start) rfl (.pure (.wrap ?_ rfl rfl))
  exact (ht.trans hu).trans (hkey.trans (hparams.trans hbody))

theorem classMethodsFrom_pairs (turns : Nat) {found : List Method}
    (hfound : r.Pairs (found.reverse.map .method) s) :
    Ensures root (classMethodsFrom g turns found) ctx s
      (fun ms t => r.Pairs (ms.map .method) t) := by
  induction turns generalizing s found with
  | zero => exact .pure hfound
  | succ turns ih =>
    refine .look s.current rfl (.ite (fun _ => .pure hfound) (fun _ => ?_))
    refine .look s.here rfl ?_
    refine (Ensures.lift (modifier_pairs "static")).bind
      fun isStatic t _ ht => ?_
    refine (method_pairs hg isStatic _).bind fun m u _ hm => ?_
    refine (Ensures.lift (eat_pairs .semicolon rfl).discard).bind
      fun _ v _ ⟨_, hv⟩ => ?_
    exact ih ((hfound.concat_node (ht.trans hm)).later hv)

theorem classMethods_pairs :
    Ensures root (classMethods g) ctx s
      (fun ms t => s.Pairs (ms.map .method) t) :=
  .look ctx rfl (classMethodsFrom_pairs hg _ (.refl s))

/-! ## Classes -/

omit hg in
theorem className_pairs (mayBeUnnamed : Bool) :
    Ensures root (className mayBeUnnamed) ctx s
      (fun id? t => s.Pairs (id?.toList.map .identifier) t) := by
  refine .ite (fun _ => optionalIdentifier_pairs) (fun _ => ?_)
  exact identifier_pairs.bind fun id t _ hid => .pure hid

theorem classParent_pairs :
    Ensures root (classParent g) ctx s
      (fun e? t => s.Pairs (e?.toList.map .expression) t) := by
  refine .look (s.current.isKeyword .kwExtends) rfl
    (.ite (fun h => ?_) (fun _ => .pure (.refl s)))
  refine (Ensures.lift (pass_pairs (isEof_of_isKeyword h)
    (isBracket_of_isKeyword h))).bind fun _ t _ ht => ?_
  exact (hg.expression .call).bind fun e u _ he => .pure (ht.trans he)

/-- **A class**, with its methods in braces. -/
theorem classDefinition_pairs (mayBeUnnamed : Bool) :
    Ensures root (classDefinition g mayBeUnnamed) ctx s
      (fun c t => s.Pairs [.classDef c] t) := by
  refine (expectKeyword_pairs _).bind fun opening t _ ⟨_, ht⟩ => ?_
  refine (className_pairs mayBeUnnamed).bind fun id? u _ hid => ?_
  refine (classParent_pairs hg).bind fun parent? v _ hparent => ?_
  refine (expectPunctuator_shifts .lBrace).discard.bind
    fun _ w _ ⟨_, hp, hw⟩ => ?_
  refine hg.methods.bind fun methods x _ hmethods => ?_
  refine (close_pairs .rBrace hmethods).bind fun _ y _ hy => ?_
  refine .look (y.spanFrom opening.span.start) rfl
    (.pure (.wrap ?_ rfl rfl))
  have hbody : v.Pairs (methods.map .method) y :=
    (Brackets.open_ hp hw rfl hy).plain
  exact ht.trans ((hid.trans hparent).trans hbody)

/-! ## Literals -/

omit hg

theorem regexLiteral_pairs (hkind : s.current.kind = .regex) :
    Ensures root regexLiteral ctx s
      (fun l t => s.Pairs [.literal l] t) :=
  .look s.current rfl (literal_pairs _
    (isEof_eq_false hkind (fun h => nomatch h))
    (Token.isBracket_of_kind hkind))

/-- **A slash read again** has not been taken yet. -/
theorem rescannedRegex_pairs
    (hslash : s.current.kind = .punctuator .slash
      ∨ s.current.kind = .punctuator .slashEq) :
    Ensures root rescannedRegex ctx s
      (fun l t => s.Pairs [.literal l] t) := by
  refine .look ctx rfl ?_
  refine Ensures.bind (Q := fun _ t => s.Pairs [] t
    ∧ t.current.kind = .regex) ?_ (fun _ t _ h => ?_)
  · intro hctx hs
    show s.Leads root (s.rescanRegex ctx)
      ∧ ∀ _, _ → s.Pairs [] (s.rescanRegex ctx) ∧ _
    rw [rescanRegex_congr hctx]
    obtain ⟨v, hv, heq⟩ := rescanRegex_eq root s
    refine ⟨.step hs (.rescan hslash), fun _ _ => ⟨.of_taken_eq ?_,
      (rescanRegex_good hs hslash).2.2⟩⟩
    rw [heq, hv.eq]
  · exact (regexLiteral_pairs h.2).mono fun _ _ _ hl => h.1.trans hl

/-! ## Arrow functions -/

include hg

/-- **An arrow function**, its parameters aside. -/
theorem arrowFunction_pairs (isAsync : Bool) (params : List Identifier)
    (start : Nat) (hparams : r.Pairs (params.map .identifier) s) :
    Ensures root (arrowFunction g isAsync params start) ctx s
      (fun e t => r.Pairs [.expression e] t) := by
  refine (expectPunctuator_pairs .arrow rfl).discard.bind
    fun _ t _ ⟨_, ht⟩ => ?_
  refine .look (t.current.isPunctuator .lBrace) rfl ?_
  -- A body of either kind ends the function.
  have hend : ∀ body u, t.Leads root u →
      t.Pairs [ArrowBody.part body] u →
      Ensures root (do
          let span ← liftM (spanFrom start)
          pure (Expression.arrow isAsync params body span)) ctx u
        (fun e v => r.Pairs [.expression e] v) := by
    intro body u _ hbody
    refine .look (u.spanFrom start) rfl (.pure (.wrap ?_ rfl rfl))
    exact (hparams.later ht).trans hbody
  dsimp only
  refine .ite (fun _ => ?_) (fun _ => ?_)
  · exact Ensures.bind (.map hg.block) hend
  · exact Ensures.bind (.map (assignment_pairs hg)) hend

/-- **A function behind the word for an asynchronous one.** -/
theorem asyncFunction?_pairs (h : s.current.isWord "async" = true) :
    Ensures root (asyncFunction? g) ctx s
      (fun e? t => s.Pairs (e?.toList.map .expression) t) := by
  have hpass : Action.Ensures root (discard advance) ctx s
      (fun _ t => s.Pairs [] t) :=
    pass_pairs (isEof_of_isWord h) (isBracket_of_isWord h)
  refine .look s rfl ?_
  dsimp only
  refine .ite (fun _ => ?_) (fun _ => .ite (fun _ => ?_) (fun _ => .ite
    (fun _ => ?_) (fun _ => .pure (.refl s))))
  · refine (Ensures.lift hpass).bind fun _ t _ ht => ?_
    refine (functionExpression_pairs hg true _).bind fun e u _ he => ?_
    exact .pure (ht.trans he)
  · refine (Ensures.lift hpass).bind fun _ t _ ht => ?_
    refine identifier_pairs.bind fun param u _ hparam => ?_
    refine (arrowFunction_pairs hg true [param] _ (ht.trans hparam)).bind
      fun e v _ he => ?_
    exact .pure he
  · refine (Ensures.lift hpass).bind fun _ t _ ht => ?_
    refine (parameterList_pairs hg).bind fun params u _ hparams => ?_
    refine (arrowFunction_pairs hg true params _ (ht.trans hparams)).bind
      fun e v _ he => ?_
    exact .pure he

theorem nameOrArrow_pairs :
    Ensures root (nameOrArrow g) ctx s
      (fun e t => s.Pairs [.expression e] t) := by
  refine .look s.current rfl (.look s.scanner.peek rfl ?_)
  refine .ite (fun _ => ?_) (fun _ => ?_)
  · refine identifier_pairs.bind fun param t _ hparam => ?_
    exact arrowFunction_pairs hg false [param] _ hparam
  · exact identifier_pairs.bind fun id t _ hid => .pure (.wrap hid rfl rfl)

theorem nameOperand_pairs :
    Ensures root (nameOperand g) ctx s
      (fun e t => s.Pairs [.expression e] t) := by
  refine .look (s.current.isWord "async") rfl
    (.ite (fun h => ?_) (fun _ => nameOrArrow_pairs hg))
  refine (asyncFunction?_pairs hg h).bind fun e? t _ he => ?_
  cases e? with
  | some e => exact .pure he
  | none => exact (nameOrArrow_pairs hg).mono fun _ _ _ h => he.trans h

/-! ## Brackets -/

/-- **An expression in parentheses**, or an arrow function. -/
theorem parenthesizedOrArrow_pairs :
    Ensures root (parenthesizedOrArrow g) ctx s
      (fun e t => s.Pairs [.expression e] t) := by
  refine .look s rfl (.ite (fun _ => ?_) (fun _ => ?_))
  · refine (parameterList_pairs hg).bind fun params t _ hparams => ?_
    exact arrowFunction_pairs hg false params _ hparams
  · refine (condition_pairs hg).bind fun e t hst he => ?_
    refine .look (t.spanFrom s.here) rfl (.pure ?_)
    exact he.node rfl rfl rfl rfl (spanFrom_eq (he.past hst))

theorem arrayElements_pairs :
    Ensures root (arrayElements g) ctx s
      (fun es t => s.Pairs (es.map .expression) t) := by
  refine (separated_pairs (fun _ => assignment_pairs hg) _ _).mono
    fun es t _ h => ?_
  rwa [← List.map_eq_flatMap] at h

/-- **An array.** -/
theorem arrayLiteral_pairs :
    Ensures root (arrayLiteral g) ctx s
      (fun e t => s.Pairs [.expression e] t) := by
  refine (expectPunctuator_shifts _).bind fun opening t hst ⟨hp, ht⟩ => ?_
  refine hg.elements.bind fun elements u htu helements => ?_
  refine (close_pairs .rBracket helements).bind fun _ v huv hv => ?_
  refine .look (v.spanFrom opening.span.start) rfl (.pure ?_)
  have hopen : s.Brackets .lBracket (elements.map .expression) v :=
    .open_ hp ht rfl hv
  rw [ht.start_eq]
  exact hopen.node rfl rfl rfl rfl
    (spanFrom_eq (hopen.past (hst.trans (htu.trans huv))))

/-- **A key with the value behind it.** -/
theorem pairWith_pairs (key : PropertyKey) (start : Nat)
    (hkey : r.Pairs [key.part] s) :
    Ensures root (pairWith g key start) ctx s
      (fun m t => r.Pairs m.parts t) := by
  refine (expectPunctuator_pairs .colon rfl).discard.bind
    fun _ t _ ⟨_, ht⟩ => ?_
  refine (assignment_pairs hg).bind fun value u _ hvalue => ?_
  exact .pure ((hkey.later ht).trans hvalue)

/-- **A member of an object.** -/
theorem objectMember_pairs :
    Ensures root (objectMember g) ctx s
      (fun m t => s.Pairs m.parts t) := by
  refine .look s.current rfl ?_
  have hmethod : Ensures root (do
      let m ← method g false s.here
      pure (ObjectMember.method m)) ctx s
      (fun m t => s.Pairs m.parts t) :=
    (method_pairs hg false _).bind fun m t _ hm => .pure hm
  have hname : Ensures root (do
      let next ← liftM peek
      if next.isPunctuator .colon = true then
        pairWith g (.identifier (← propertyName)) s.here
      else return .method (← method g false s.here)) ctx s
      (fun m t => s.Pairs m.parts t) := by
    refine .look s.scanner.peek rfl (.ite (fun _ => ?_) (fun _ => hmethod))
    refine propertyName_pairs.bind fun id t _ hid => ?_
    exact pairWith_pairs hg (.identifier id) _ hid
  have hliteral : ∀ {kind : LiteralKind} {mk : Literal → PropertyKey}
      {tokenKind : TokenKind}, (∀ l, (mk l).part = .literal l) →
      s.current.kind = tokenKind → tokenKind ≠ .eof →
      (tokenKind.isOpener || tokenKind.isCloser) = false →
      Ensures root (do
        let l ← literal kind
        pairWith g (mk l) s.here) ctx s
        (fun m t => s.Pairs m.parts t) := by
    intro kind mk tokenKind hmk hk hne hplain
    refine (literal_pairs kind (isEof_eq_false hk hne)
      ((Token.isBracket_of_kind hk).trans hplain)).bind fun l t _ hl => ?_
    refine pairWith_pairs hg (mk l) _ ?_
    rw [hmk]
    exact hl
  dsimp only
  split
  · rename_i hk
    exact hliteral (fun _ => rfl) hk (by simp) rfl
  · rename_i hk
    exact hliteral (fun _ => rfl) hk (by simp) rfl
  · exact hmethod
  · exact hname
  · exact hname
  · exact unexpected_ensures _

theorem objectMembers_pairs :
    Ensures root (objectMembers g) ctx s
      (fun ms t => s.Pairs (ms.flatMap ObjectMember.parts) t) :=
  separated_pairs (fun _ => objectMember_pairs hg) _ _

/-- **An object.** -/
theorem objectLiteral_pairs :
    Ensures root (objectLiteral g) ctx s
      (fun e t => s.Pairs [.expression e] t) := by
  refine (expectPunctuator_shifts _).bind fun opening t hst ⟨hp, ht⟩ => ?_
  refine hg.members.bind fun members u htu hmembers => ?_
  refine (close_pairs .rBrace hmembers).bind fun _ v huv hv => ?_
  refine .look (v.spanFrom opening.span.start) rfl (.pure ?_)
  have hopen : s.Brackets .lBrace (members.flatMap ObjectMember.parts) v :=
    .open_ hp ht rfl hv
  rw [ht.start_eq]
  exact hopen.node rfl rfl rfl rfl
    (spanFrom_eq (hopen.past (hst.trans (htu.trans huv))))

/-! ## Any operand -/

omit hg in
theorem superOperand_pairs (heof : s.current.isEof = false)
    (hplain : s.current.isBracket = false) :
    Ensures root superOperand ctx s
      (fun e t => s.Pairs [.expression e] t) := by
  refine (Ensures.lift (advance_pairs heof hplain)).bind
    fun token t _ ⟨_, ht⟩ => ?_
  refine .look t.current rfl (.ite (fun _ => ?_) (fun _ => ?_))
  · exact .pure (.wrap ht rfl rfl)
  · exact unexpected_ensures _

omit hg in
/-- A literal as an operand. -/
theorem literalOperand_pairs {p : Parse Literal}
    (hp : Ensures root p ctx s (fun l t => s.Pairs [.literal l] t)) :
    Ensures root (p >>= fun l => pure (.literal l)) ctx s
      (fun e t => s.Pairs [.expression e] t) :=
  hp.bind fun _ _ _ h => .pure (.wrap h rfl rfl)

/-- **What a reserved word begins.** -/
theorem keywordOperand_pairs {k : Keyword}
    (hk : s.current.kind = .keyword k) :
    Ensures root (keywordOperand g k) ctx s
      (fun e t => s.Pairs [.expression e] t) := by
  have heof : s.current.isEof = false :=
    isEof_eq_false hk (by simp)
  have hplain : s.current.isBracket = false := Token.isBracket_of_kind hk
  unfold keywordOperand
  split
  · refine (Ensures.lift (advance_pairs heof hplain)).bind
      fun token t _ htook => ?_
    obtain ⟨-, ht⟩ := htook
    exact .pure (.wrap ht rfl rfl)
  · exact superOperand_pairs heof hplain
  · exact literalOperand_pairs (literal_pairs _ heof hplain)
  · exact literalOperand_pairs (literal_pairs _ heof hplain)
  · exact literalOperand_pairs (literal_pairs _ heof hplain)
  · exact literalOperand_pairs (literal_pairs _ heof hplain)
  · exact .look s.here rfl (functionExpression_pairs hg false _)
  · exact (classDefinition_pairs hg false).bind
      fun c t _ hc => .pure (.wrap hc rfl rfl)
  · exact unexpected_ensures _

/-- **An operand without operators.** -/
theorem primary_pairs :
    Ensures root (primary g) ctx s
      (fun e t => s.Pairs [.expression e] t) := by
  have hliteral : ∀ {kind : LiteralKind} {tokenKind : TokenKind},
      s.current.kind = tokenKind → tokenKind ≠ .eof →
      (tokenKind.isOpener || tokenKind.isCloser) = false →
      Ensures root (literal kind >>= fun l => pure (.literal l)) ctx s
        (fun e t => s.Pairs [.expression e] t) := fun hk hne hplain =>
    literalOperand_pairs (literal_pairs _ (isEof_eq_false hk hne)
      ((Token.isBracket_of_kind hk).trans hplain))
  refine .look s.current rfl ?_
  split
  case h_1 => exact nameOperand_pairs hg
  case h_2 hk => exact hliteral hk (by simp) rfl
  case h_3 hk => exact hliteral hk (by simp) rfl
  case h_4 hk => exact hliteral hk (by simp) rfl
  case h_5 hk => exact literalOperand_pairs (regexLiteral_pairs hk)
  case h_6 hk => exact literalOperand_pairs (rescannedRegex_pairs (.inl hk))
  case h_7 hk => exact literalOperand_pairs (rescannedRegex_pairs (.inr hk))
  case h_8 => exact parenthesizedOrArrow_pairs hg
  case h_9 => exact arrayLiteral_pairs hg
  case h_10 => exact objectLiteral_pairs hg
  case h_11 k hk => exact keywordOperand_pairs hg hk
  case h_12 => exact unexpected_ensures _

end ScriptTree.Parse
