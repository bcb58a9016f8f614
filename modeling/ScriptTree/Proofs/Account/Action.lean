import ScriptTree.Proofs.Account.Logic
import ScriptTree.Proofs.Parse.Action

/-!
# What becomes of one token

A token that is read is spent on a name or on a literal, or it is one that
need not be in the tree: a mark, a reserved word, or one of the names that
are looked for by their spelling.

A problem that is taken down is an error, with two exceptions that have to
do with the end of the text. After an error nothing is accounted for any
more.
-/

namespace ScriptTree

variable {root ctx : Context} {s t : State} {α : Type}

/-! ## Tokens that need not be in a tree -/

namespace Token

variable {token : Token}

theorem IsSilent.isEof_eq_false (h : token.IsSilent) :
    token.isEof = false := by
  refine Bool.eq_false_iff.2 (fun heof => ?_)
  unfold IsSilent at h
  rw [show token.kind = .eof from of_decide_eq_true heof] at h
  exact h

theorem isSilent_of_kind_punctuator {p : Punctuator}
    (h : token.kind = .punctuator p) : token.IsSilent := by
  unfold IsSilent
  rw [h]
  trivial

theorem isSilent_of_kind_keyword {k : Keyword}
    (h : token.kind = .keyword k) : token.IsSilent := by
  unfold IsSilent
  rw [h]
  trivial

theorem isSilent_of_isPunctuator {p : Punctuator}
    (h : token.isPunctuator p = true) : token.IsSilent :=
  isSilent_of_kind_punctuator (of_decide_eq_true h)

theorem isSilent_of_isKeyword {k : Keyword}
    (h : token.isKeyword k = true) : token.IsSilent :=
  isSilent_of_kind_keyword (of_decide_eq_true h)

/-- A name that is looked for by its spelling. -/
theorem isSilent_of_isWord {word : String} (h : token.isWord word = true)
    (hword : word ∈ softWords) : token.IsSilent := by
  rw [isWord, Bool.and_eq_true] at h
  unfold IsSilent
  rw [of_decide_eq_true h.1, of_decide_eq_true h.2]
  exact hword

/-- **Only marks and reserved words are operators.** -/
theorem isSilent_of_find? {table : OperatorTable} {fixity : Fixity}
    {info : OperatorInfo} (h : table.find? token.kind fixity = some info) :
    token.IsSilent := by
  unfold IsSilent
  cases hk : token.kind with
  | punctuator | keyword => trivial
  | _ =>
    rw [hk] at h
    exact nomatch h

end Token

/-! ## Tokens that are read -/

namespace State

/-- The tokens one token is spent on. -/
theorem Gathers.of_token {ns : List Node} (h : Acts root s t)
    (htaken : t.taken = s.known)
    (hspent : Spent [s.current] (ns.flatMap Node.leaves)) :
    s.Gathers root ns t :=
  ⟨h, fun _ => ⟨[s.current], htaken, hspent⟩⟩

end State

namespace Action

open State

theorem advance_accounts (heof : s.current.isEof = false) :
    Accounts root advance ctx s
      (fun token t => token = s.current ∧ t.taken = s.known) := by
  intro hctx _
  have hrun : advance ctx s = (s.current, s.bump root) :=
    Prod.ext rfl (bump_congr hctx s)
  rw [hrun]
  exact ⟨.single (.bump heof), rfl, (List.cons.inj (bump_known root s)).2⟩

/-- **A token that need not be in the tree** is read. -/
theorem skip_accounts (h : s.current.IsSilent) :
    Accounts root advance ctx s
      (fun token t => token ∈ t.known ∧ s.Gathers root [] t) := by
  refine (advance_accounts h.isEof_eq_false).mono
    fun token t hst ⟨htoken, htaken⟩ => ⟨?_, ?_⟩
  · refine mem_known_of_taken ?_
    rw [htaken, htoken]
    exact List.mem_cons_self
  · exact .of_token hst htaken (.silent h .nil)

theorem pass_accounts (h : s.current.IsSilent) :
    Accounts root (discard advance) ctx s
      (fun _ t => s.Gathers root [] t) :=
  ((skip_accounts h).mono (fun _ _ _ ht => ht.2)).discard

theorem eat_accounts (p : Punctuator) :
    Accounts root (eat p) ctx s (fun _ t => s.Gathers root [] t) := by
  refine .look (s.current.isPunctuator p) rfl
    (.ite (fun h => ?_) (fun _ => .pure (.refl root s)))
  refine (pass_accounts (Token.isSilent_of_isPunctuator h)).bind ?_
  exact fun _ _ _ ht => .pure ht

/-! ## Problems that are taken down -/

theorem report_accounts {kind : DiagnosticKind} (severity : Severity)
    {message : String} {span : Span}
    (h : s.Reached root → s.Warrants root kind message span) :
    Accounts root (report kind severity message span) ctx s
      (fun _ t => s.Gathers root [] t
        ∧ (severity = .error → ¬t.Clean root)) := by
  intro hctx hs
  have hrun : (report kind severity message span ctx s).2
      = s.report root kind severity message span :=
    report_congr hctx kind severity message span s
  rw [hrun]
  have hact : Acts root s (s.report root kind severity message span) :=
    .single (.report severity (h hs))
  refine ⟨hact, .of_taken_eq hact ?_, fun herror hclean => ?_⟩
  · rw [(report_reported root kind severity message span s).eq]
  · exact nomatch herror.symm.trans (report_clean hclean).2

/-- **An error with a reason.** If it lies in a token, the token has been
taken down before. -/
theorem reportError_accounts {kind : DiagnosticKind} {error : ParseError}
    (hkind : kind ≠ .lexical) (h : s.Sound root → error.Founded root s) :
    Accounts root (reportError kind error) ctx s
      (fun _ t => ¬t.Clean root) := by
  cases hlexical : error.isLexical with
  | true =>
    intro _ hs
    have hrun : (reportError kind error ctx s).2 = s := if_pos hlexical
    rw [hrun]
    exact ⟨.refl, (h hs.sound).not_clean hs.sound hlexical⟩
  | false =>
    have hrun : reportError kind error ctx s
        = report kind .error error.message error.span ctx s :=
      Prod.ext rfl (if_neg (Bool.eq_false_iff.1 hlexical))
    intro hctx hs
    rw [hrun]
    obtain ⟨hacts, _, hclean⟩ := report_accounts .error
      (fun hs => (h hs.sound).warrants hlexical hkind) hctx hs
    exact ⟨hacts, hclean rfl⟩

theorem record_accounts (event : Event) :
    Accounts root (record event) ctx s
      (fun _ t => s.Gathers root [] t ∧ t.known = s.known) :=
  fun _ _ => ⟨.single (.record event), .of_taken_eq (.single (.record event))
    rfl, rfl⟩

end Action

namespace Parse

open ScriptTree.Action State

/-- **The current token is blamed.** -/
theorem unexpected_accounts {Q : α → State → Prop} (expected : String) :
    Accounts root (unexpected expected) ctx s Q :=
  .look s.current rfl (.throw (fun hs =>
    ParseError.ofToken_founded hs List.mem_cons_self expected))

theorem tooDeep_accounts {Q : α → State → Prop} :
    Accounts root tooDeep ctx s Q := by
  refine .look ctx rfl (.look s.current rfl (.throw (fun hs => ?_)))
  refine .of_not_isMismatch (hs.framed _ List.mem_cons_self) ?_
  have h := IsMismatch.not_of_head "nesting exceeds "
    (toString ctx.options.maxNestingDepth ++ " levels") (by decide)
    (by decide)
  rwa [← String.append_assoc] at h

theorem expectPunctuator_accounts (p : Punctuator) :
    Accounts root (expectPunctuator p) ctx s
      (fun _ t => s.Gathers root [] t) := by
  refine .look (s.current.isPunctuator p) rfl
    (.ite (fun h => ?_) (fun _ => unexpected_accounts _))
  exact (Accounts.lift (skip_accounts
    (Token.isSilent_of_isPunctuator h))).mono (fun _ _ _ ht => ht.2)

theorem expectKeyword_accounts (k : Keyword) :
    Accounts root (expectKeyword k) ctx s
      (fun _ t => s.Gathers root [] t) := by
  refine .look (s.current.isKeyword k) rfl
    (.ite (fun h => ?_) (fun _ => unexpected_accounts _))
  exact (Accounts.lift (skip_accounts
    (Token.isSilent_of_isKeyword h))).mono (fun _ _ _ ht => ht.2)

theorem expectWord_accounts {word : String} (hword : word ∈ softWords) :
    Accounts root (expectWord word) ctx s
      (fun _ t => s.Gathers root [] t) := by
  refine .look (s.current.isWord word) rfl
    (.ite (fun h => ?_) (fun _ => unexpected_accounts _))
  exact (Accounts.lift (skip_accounts
    (Token.isSilent_of_isWord h hword))).mono (fun _ _ _ ht => ht.2)

/-! ## Names and literals -/

/-- **A token is read as a name.** -/
theorem identifierOf_accounts (h : namesProperty s.current = true) :
    Accounts root (liftM advance >>= fun token => pure (identifierOf token))
      ctx s (fun id t => s.Gathers root [.identifier id] t) := by
  refine (Accounts.lift (advance_accounts (isEof_of_namesProperty h))).bind
    fun token t hst ⟨htoken, htaken⟩ => .pure ?_
  rw [htoken]
  refine .of_token hst htaken ?_
  rw [List.flatMap_singleton, Node.leaves_eq]
  exact .name h .nil

theorem namesProperty_of_kind {token : Token}
    (h : token.kind = .identifier) : namesProperty token = true := by
  unfold namesProperty
  rw [h]

theorem identifier_accounts :
    Accounts root identifier ctx s
      (fun id t => s.Gathers root [.identifier id] t) := by
  refine .look (decide (s.current.kind = .identifier)) rfl
    (.ite (fun h => ?_) (fun _ => unexpected_accounts _))
  exact identifierOf_accounts (namesProperty_of_kind (of_decide_eq_true h))

theorem propertyName_accounts :
    Accounts root propertyName ctx s
      (fun id t => s.Gathers root [.identifier id] t) :=
  .look s.current rfl
    (.ite identifierOf_accounts (fun _ => unexpected_accounts _))

/-- **A token is read as a literal.** -/
theorem literal_accounts {kind : LiteralKind}
    (heof : s.current.isEof = false) (hkind : kind.Suits s.current) :
    Accounts root (literal kind) ctx s
      (fun l t => s.Gathers root [.literal l] t) := by
  refine (Accounts.lift (advance_accounts heof)).bind
    fun token t hst ⟨htoken, htaken⟩ => .pure ?_
  rw [htoken]
  refine .of_token hst htaken ?_
  rw [List.flatMap_singleton, Node.leaves_eq]
  exact .literal hkind .nil

theorem moduleName_accounts :
    Accounts root moduleName ctx s
      (fun l t => s.Gathers root [.literal l] t) := by
  refine .look (decide (s.current.kind = .string)) rfl
    (.ite (fun h => ?_) (fun _ => unexpected_accounts _))
  have hk : s.current.kind = .string := of_decide_eq_true h
  refine literal_accounts (isEof_eq_false hk (fun h => nomatch h)) (.inl ?_)
  rw [hk]
  rfl

end Parse

end ScriptTree
