import ScriptTree.Proofs.Law.Basic

/-!
# Operands are made by law

An expression is read for a seat wherever one is asked for, and it takes
the seat as it is, or an error node does. So a grammar whose expressions
may take their seats, and whose other nodes may stand where they do
(`Grammar.Lawful`), makes operands by the law.

What has been folded so far may still be called or accessed. Which seat it
takes is told by the next token (`Seat.before`).
-/

namespace ScriptTree

open Node State

variable {root ctx : Context} {s last : State} {L : Law} {k : Nat}
  {g : Grammar}

/-- What is in the seats of a header. -/
def ForHeader.Seated (A : Seat → Expression → Prop) : ForHeader → Prop
  | counting init? test? update? =>
    (∀ i ∈ init?, i.Seated A) ∧ (∀ e ∈ test?, A .plain e)
      ∧ ∀ e ∈ update?, A .plain e
  | overKeys _ left right | overValues _ left right =>
    A .plain left ∧ A .plain right

open Parse in
/-- **A grammar that makes trees** by a law, over so many levels. -/
structure Grammar.Lawful (root : Context) (last : State) (L : Law) (k : Nat)
    (g : Grammar) : Prop where
  /-- It accounts for what it reads. -/
  gathers : g.Gathers root
  /-- The law holds. -/
  law : L.Holds root last
  /-- What has been folded takes the seat before the next token. -/
  folded {min : Precedence} {ctx : Context} {s t : State} {e : Expression}
    (hctx : root.Within ctx) (hs : s.Reached root) (hst : Acts root s t)
    (hfold : Folded g min ctx s e t) (hlast : Acts root t last)
    (made : L.made k (.expression e)) : L.sits k (.before t.current) e
  /-- A statement is made. -/
  statement {ctx : Context} {s : State} :
    Brings root last g.statement ctx s (fun x => L.stands k (.statement x))
  /-- A block is made. -/
  block {ctx : Context} {s : State} :
    Brings root last g.block ctx s (fun b => L.stands k (.block b))
  /-- An expression is made, and may sit behind an operator. -/
  expression {min : Precedence} (hmin : root.table.Asks min)
    {ctx : Context} {s : State} :
    Brings root last (g.expression min) ctx s (L.sits k .behind)
  /-- One at a tolerant point may sit anywhere else. -/
  tolerant (point : TolerantPoint) {min : Precedence}
    (hmin : root.table.Asks min) {ctx : Context} {s : State} :
    Brings root last (tolerant point (g.expression min)) ctx s
      (L.sits k .plain)
  /-- So may one between brackets. -/
  bracketed (point : TolerantPoint) (closer : Punctuator) {ctx : Context}
    {s : State} :
    Brings root last (g.bracketed point closer) ctx s (L.sits k .plain)
  /-- So may a first branch. -/
  consequent {ctx : Context} {s : State} :
    Brings root last g.consequent ctx s (L.sits k .plain)
  /-- So may arguments. -/
  arguments {ctx : Context} {s : State} :
    Brings root last g.arguments ctx s (fun es => ∀ e ∈ es, L.sits k .plain e)
  /-- So may elements. -/
  elements {ctx : Context} {s : State} :
    Brings root last g.elements ctx s (fun es => ∀ e ∈ es, L.sits k .plain e)
  /-- Members are made. -/
  members {ctx : Context} {s : State} :
    Brings root last g.members ctx s (fun ms => ∀ m ∈ ms,
      m.Seated (L.sits k) ∧ L.Stand k m.parts)
  /-- Methods are made. -/
  methods {ctx : Context} {s : State} :
    Brings root last g.methods ctx s
      (fun ms => ∀ m ∈ ms, L.stands k (.method m))
  /-- A header is made. -/
  forHeader {ctx : Context} {s : State} :
    Brings root last g.forHeader ctx s
      (fun h => h.Seated (L.sits k) ∧ L.Stand k h.parts)

namespace Parse

open ScriptTree.Action

variable (hg : g.Lawful root last L k)

include hg

/-! ## The productions in common use -/

/-- **An expression** may sit anywhere. -/
theorem whole_brings {min : Precedence} (hmin : root.table.Asks min) :
    Brings root last (g.expression min) ctx s (L.sits k .plain) :=
  (hg.expression hmin).mono fun _ => hg.law.plain

theorem expression_brings :
    Brings root last (expression g) ctx s (L.sits k .plain) :=
  whole_brings hg .lowest

theorem assignment_brings :
    Brings root last (assignment g) ctx s (L.sits k .plain) :=
  whole_brings hg .assignment

/-- What must come behind an expression does not unseat it. -/
theorem expressionBefore_brings (closer : Punctuator) :
    Brings root last (expressionBefore g closer) ctx s
      (L.sits k .plain) := by
  refine (expression_brings hg).bind fun e t _ => ?_
  exact .look t.current rfl
    (.ite (fun _ => .pure id) (fun _ => unexpected_accounts _))

/-- An expression in parentheses sits as it would without them. -/
theorem condition_brings :
    Brings root last (condition g) ctx s (L.sits k .plain) := by
  refine .skip (expectPunctuator_accounts .lParen).discard
    fun _ _ _ _ => (hg.bracketed _ _).bind fun _ _ _ => ?_
  exact .skip (expectPunctuator_accounts .rParen).discard
    fun _ _ _ _ => .pure id

/-! ## Functions and classes -/

/-- **A function** is a declaration, and has no seat. -/
theorem functionExpression_brings (isAsync : Bool) (start : Nat) :
    Brings root last (functionExpression g isAsync start) ctx s
      (fun e => e.isDeclarationLike = true ∧ L.made k (.expression e)) := by
  refine .skip (expectKeyword_accounts _).discard fun _ _ _ _ => ?_
  refine .skip (.lift (eat_accounts .star)) fun isGenerator _ _ _ => ?_
  refine .skip optionalIdentifier_accounts fun id? _ _ _ => ?_
  refine .skip (parameterList_accounts hg.gathers) fun params _ _ _ => ?_
  refine hg.block.bind fun body x _ => ?_
  refine .look (x.spanFrom start) rfl (.pure fun hbody => ?_)
  have hf : L.stands k
      (.function ⟨id?, params, body, isAsync, x.spanFrom start⟩) :=
    hg.law.stand rfl (hg.law.makes trivial
      (((hg.law.identifiers _).append (hg.law.identifiers _)).append
        (.one hbody)))
  cases isGenerator <;> exact ⟨rfl, hg.law.makes trivial (.one hf)⟩

/-- What a class extends sits in the class. -/
theorem classParent_brings :
    Brings root last (classParent g) ctx s
      (fun e? => ∀ e ∈ e?, L.sits k .plain e) := by
  refine .look (s.current.isKeyword .kwExtends) rfl
    (.ite (fun h => ?_) (fun _ => .pure nofun))
  refine .skip (.lift (pass_accounts (Token.isSilent_of_isKeyword h)))
    fun _ _ _ _ => (whole_brings hg .parent).bind fun e _ _ => ?_
  exact .pure fun he e' he' => Option.some.inj he' ▸ he

/-- **A class.** What it extends has a seat in the class. -/
theorem classDefinition_brings (mayBeUnnamed : Bool) :
    Brings root last (classDefinition g mayBeUnnamed) ctx s
      (fun c => L.made k (.expression (.classDef c))) := by
  refine .skip (expectKeyword_accounts _) fun opening _ _ _ => ?_
  refine .skip (className_accounts mayBeUnnamed) fun id? _ _ _ => ?_
  refine (classParent_brings hg).bind fun parent? _ _ => ?_
  refine .skip (expectPunctuator_accounts .lBrace).discard
    fun _ _ _ _ => hg.methods.bind fun methods _ _ => ?_
  refine .skip (expectPunctuator_accounts .rBrace).discard
    fun _ y _ _ => ?_
  refine .look (y.spanFrom opening.span.start) rfl
    (.pure fun hmethods hparent => ?_)
  have hseated : (Class.mk id? parent? methods
      (y.spanFrom opening.span.start)).Seated (L.sits k) := hparent
  refine hg.law.makes hseated (.one (hg.law.stand rfl
    (hg.law.makes hseated ?_)))
  exact ((hg.law.identifiers _).append
    (.expressions _)).append (.map hmethods)

/-- **A method**: its body is seated, and its name has no seat. -/
theorem method_brings (isStatic : Bool) (start : Nat) :
    Brings root last (method g isStatic start) ctx s
      (fun m => L.stands k (.method m)) := by
  refine .skip (.lift (modifier_accounts (by decide))) fun _ _ _ _ => ?_
  refine .skip (.lift methodKind_accounts) fun _ _ _ _ => ?_
  refine .skip methodName_accounts fun key _ _ _ => ?_
  refine .skip (parameterList_accounts hg.gathers) fun params _ _ _ => ?_
  refine hg.block.bind fun body x _ => ?_
  refine .look (x.spanFrom start) rfl (.pure fun hbody => ?_)
  exact hg.law.stand rfl (hg.law.makes trivial
    (.cons (hg.law.identifier _) ((hg.law.identifiers _).append
      (.one hbody))))

/-- The loop over the methods of a class. -/
theorem classMethodsFrom_brings (turns : Nat) (found : List Method) :
    Brings root last (classMethodsFrom g turns found) ctx s (fun ms =>
      (∀ m ∈ found, L.stands k (.method m)) →
        ∀ m ∈ ms, L.stands k (.method m)) := by
  have hdone (found : List Method)
      (h : ∀ m ∈ found, L.stands k (.method m)) :
      ∀ m ∈ found.reverse, L.stands k (.method m) :=
    fun m hm => h m (List.mem_reverse.1 hm)
  induction turns generalizing s found with
  | zero => exact .pure (hdone _)
  | succ turns ih =>
    refine .look s.current rfl
      (.ite (fun _ => .pure (hdone _)) (fun _ => .look s.here rfl ?_))
    refine .skip (.lift (modifier_accounts (by decide))) fun _ _ _ _ => ?_
    refine (method_brings hg _ _).bind fun m _ _ => ?_
    refine .skip (.lift (eat_accounts .semicolon).discard) fun _ _ _ _ => ?_
    exact (ih _).mono fun _ h hm hfound =>
      h (List.forall_mem_cons.2 ⟨hm, hfound⟩)

theorem classMethods_brings :
    Brings root last (classMethods g) ctx s
      (fun ms => ∀ m ∈ ms, L.stands k (.method m)) :=
  .look ctx rfl ((classMethodsFrom_brings hg _ []).mono
    fun _ h => h (List.forall_mem_nil _))

/-! ## Operands -/

/-- An arrow function, whose body sits in it. -/
theorem arrowFunction_brings (isAsync : Bool) (params : List Identifier)
    (start : Nat) :
    Brings root last (arrowFunction g isAsync params start) ctx s
      (fun e => L.made k (.expression e)) := by
  refine .skip (expectPunctuator_accounts .arrow).discard
    fun _ t _ _ => ?_
  refine .look (t.current.isPunctuator .lBrace) rfl ?_
  have hend (body : ArrowBody) (u : State) (_ : Acts root t u) :
      Brings root last (do
          let span ← liftM (spanFrom start)
          pure (Expression.arrow isAsync params body span)) ctx u (fun e =>
        body.Seated (L.sits k) ∧ L.Stand k [body.part] →
          L.made k (.expression e)) :=
    .look (u.spanFrom start) rfl (.pure fun hbody =>
      hg.law.makes hbody.1 ((hg.law.identifiers _).append hbody.2))
  dsimp only
  refine .ite (fun _ => ?_) (fun _ => ?_)
  · exact .bind (.map (hg.block.mono fun _ h => ⟨trivial, .one h⟩)) hend
  · exact .bind (.map ((assignment_brings hg).mono
      fun _ h => ⟨h, .expression .nil⟩)) hend

/-- A function behind the word for those that run on the side. -/
theorem asyncFunction?_brings (h : s.current.isWord "async" = true) :
    Brings root last (asyncFunction? g) ctx s
      (fun e? => ∀ e ∈ e?, L.made k (.expression e)) := by
  have hpass : Accounts root (liftM (discard advance)) ctx s
      (fun _ _ => True) :=
    (Accounts.lift (pass_accounts (Token.isSilent_of_isWord h
      (by decide)))).mono fun _ _ _ _ => trivial
  have hsome (e : Expression) (t : State) (_ : Acts root s t) :
      Brings root last (pure (some e) : Parse (Option Expression)) ctx t
        (fun e? => L.made k (.expression e) →
          ∀ e ∈ e?, L.made k (.expression e)) :=
    .pure fun he e' he' => Option.some.inj he' ▸ he
  refine .look s rfl ?_
  dsimp only
  refine .ite (fun _ => ?_) (fun _ => .ite (fun _ => ?_) (fun _ => .ite
    (fun _ => ?_) (fun _ => .pure nofun)))
  · refine .skip hpass fun _ t hst _ => ?_
    exact ((functionExpression_brings hg true _).mono
      fun _ h => h.2).bind fun e u htu => hsome e u (hst.trans htu)
  · refine .skip hpass fun _ t hst _ => ?_
    refine .skip identifier_accounts fun param u htu _ => ?_
    exact (arrowFunction_brings hg true _ _).bind
      fun e v huv => hsome e v ((hst.trans htu).trans huv)
  · refine .skip hpass fun _ t hst _ => ?_
    refine .skip (parameterList_accounts hg.gathers) fun params u htu _ => ?_
    exact (arrowFunction_brings hg true _ _).bind
      fun e v huv => hsome e v ((hst.trans htu).trans huv)

/-- A name sits anywhere. -/
theorem nameOrArrow_brings :
    Brings root last (nameOrArrow g) ctx s
      (fun e => L.made k (.expression e)) := by
  refine .look s.current rfl (.look s.scanner.peek rfl ?_)
  refine .ite (fun _ => ?_) (fun _ => ?_)
  · exact .skip identifier_accounts
      fun param _ _ _ => arrowFunction_brings hg false _ _
  · exact .skip identifier_accounts
      fun id _ _ _ => .pure
        (hg.law.makes trivial (.one (hg.law.identifier id)))

/-- What a name begins, by the word that the name is. -/
theorem nameOperand_brings :
    Brings root last (nameOperand g) ctx s
      (fun e => L.made k (.expression e)) := by
  refine .look (s.current.isWord "async") rfl
    (.ite (fun h => ?_) (fun _ => nameOrArrow_brings hg))
  refine (asyncFunction?_brings hg h).bind fun e? t _ => ?_
  cases e? with
  | some e => exact .pure fun he => he e rfl
  | none => exact (nameOrArrow_brings hg).mono fun _ h _ => h

/-- What begins with a parenthesis. -/
theorem parenthesizedOrArrow_brings :
    Brings root last (parenthesizedOrArrow g) ctx s
      (fun e => L.made k (.expression e)) := by
  refine .look s rfl (.ite (fun _ => ?_) (fun _ => ?_))
  · exact .skip (parameterList_accounts hg.gathers)
      fun params _ _ _ => arrowFunction_brings hg false _ _
  · refine (condition_brings hg).bind fun e t _ => ?_
    exact .look (t.spanFrom s.here) rfl
      (.pure fun he => hg.law.makes he (.expression .nil))

/-- **An element** has the level of the array to itself. -/
theorem arrayElements_brings :
    Brings root last (arrayElements g) ctx s
      (fun es => ∀ e ∈ es, L.sits (k + 1) .plain e) :=
  separated_brings (hg.law.mended k)
    (fun _ => (assignment_brings hg).mono fun _ => hg.law.sits_succ) _ _

/-- The elements of an array sit in it. -/
theorem arrayLiteral_brings :
    Brings root last (arrayLiteral g) ctx s
      (fun e => L.made k (.expression e)) := by
  refine .skip (expectPunctuator_accounts _) fun opening _ _ _ => ?_
  refine hg.elements.bind fun elements _ _ => ?_
  refine .skip (expectPunctuator_accounts .rBracket).discard
    fun _ v _ _ => .look (v.spanFrom opening.span.start) rfl (.pure ?_)
  exact fun hes => hg.law.makes hes (.expressions _)

/-- **A key with its value**: the key fits, and the value sits behind it. -/
theorem pairWith_brings (key : PropertyKey) (hkey : key.Fits)
    (start : Nat) :
    Brings root last (pairWith g key start) ctx s (fun m =>
      m.Seated (L.sits (k + 1)) ∧ L.Stand (k + 1) m.parts) := by
  refine .skip (expectPunctuator_accounts .colon).discard
    fun _ _ _ _ => (assignment_brings hg).bind fun value _ _ => ?_
  refine .pure fun hvalue => ⟨⟨hkey, hg.law.sits_succ hvalue⟩,
    .cons ?_ (.expression .nil)⟩
  cases key
  case identifier => exact hg.law.identifier _
  all_goals exact hg.law.literal _

/-- **A literal that is a key** is of the kind of its token. -/
theorem literalKey_brings (kind : LiteralKind)
    (mk : Literal → PropertyKey)
    (hmk : ∀ l : Literal, l.kind = kind → (mk l).Fits)
    (heof : s.current.isEof = false) (start : Nat) :
    Brings root last (do
      let l ← literal kind
      pairWith g (mk l) start) ctx s (fun m =>
        m.Seated (L.sits (k + 1)) ∧ L.Stand (k + 1) m.parts) := by
  have hliteral : Accounts root (literal kind) ctx s
      (fun l _ => l.kind = kind) :=
    (Accounts.lift (advance_accounts heof)).bind
      fun token _ _ _ => .pure rfl
  exact .skip hliteral fun l _ _ hl => pairWith_brings hg (mk l) (hmk l hl) _

/-- A member of an object, by its first token. -/
theorem objectMember_brings :
    Brings root last (objectMember g) ctx s (fun m =>
      m.Seated (L.sits (k + 1)) ∧ L.Stand (k + 1) m.parts) := by
  refine .look s.current rfl ?_
  have hmethod : Brings root last (do
      let m ← method g false s.here
      pure (ObjectMember.method m)) ctx s (fun m =>
        m.Seated (L.sits (k + 1)) ∧ L.Stand (k + 1) m.parts) :=
    (method_brings hg false _).bind fun _ _ _ =>
      .pure fun hm => ⟨trivial, .one (hg.law.stands_succ hm)⟩
  have hname : Brings root last (do
      let next ← liftM peek
      if next.isPunctuator .colon = true then
        pairWith g (.identifier (← propertyName)) s.here
      else return .method (← method g false s.here)) ctx s (fun m =>
        m.Seated (L.sits (k + 1)) ∧ L.Stand (k + 1) m.parts) := by
    refine .look s.scanner.peek rfl (.ite (fun _ => ?_) (fun _ => hmethod))
    exact .skip propertyName_accounts
      fun id _ _ _ => pairWith_brings hg (.identifier id) trivial _
  dsimp only
  split
  · rename_i hk
    exact literalKey_brings hg _ .string (fun _ h => h)
      (isEof_eq_false hk (by simp)) _
  · rename_i hk
    exact literalKey_brings hg _ .number (fun _ h => h)
      (isEof_eq_false hk (by simp)) _
  · exact hmethod
  · exact hname
  · exact hname
  · exact unexpected_accounts _

theorem objectMembers_brings :
    Brings root last (objectMembers g) ctx s (fun ms => ∀ m ∈ ms,
      m.Seated (L.sits (k + 1)) ∧ L.Stand (k + 1) m.parts) :=
  separated_brings (fun e => ⟨trivial, hg.law.errorNode e⟩)
    (fun _ => objectMember_brings hg) _ _

/-- The members of an object are seated in it. -/
theorem objectLiteral_brings :
    Brings root last (objectLiteral g) ctx s
      (fun e => L.made k (.expression e)) := by
  refine .skip (expectPunctuator_accounts _) fun opening _ _ _ => ?_
  refine hg.members.bind fun members _ _ => ?_
  refine .skip (expectPunctuator_accounts .rBrace).discard
    fun _ v _ _ => .look (v.spanFrom opening.span.start) rfl (.pure ?_)
  exact fun hms => hg.law.makes (fun m hm => (hms m hm).1)
    (.flatMap fun m hm => (hms m hm).2)

omit hg in
/-- **What is nothing but a leaf** has no seat. -/
theorem leafOperand_brings {α : Type} {p : Parse α} {Q : α → State → Prop}
    (hp : Accounts root p ctx s Q) {mk : α → Expression}
    (hmk : ∀ a, L.made k (.expression (mk a))) :
    Brings root last (do return mk (← p)) ctx s
      (fun e => L.made k (.expression e)) :=
  .skip hp fun a _ _ _ => .pure (hmk a)

/-- **What a reserved word begins**, word by word. -/
theorem keywordOperand_brings {word word' : Keyword}
    (hk : s.current.kind = .keyword word') :
    Brings root last (keywordOperand g word) ctx s
      (fun e => L.made k (.expression e)) := by
  have hsilent := Token.isSilent_of_kind_keyword hk
  have hliteral {kind : LiteralKind} : Brings root last
      (do return Expression.literal (← literal kind)) ctx s
      (fun e => L.made k (.expression e)) := by
    refine leafOperand_brings (Q := fun _ _ => True) ?_ fun _ =>
      hg.law.makes trivial (.one (hg.law.literal _))
    exact (Accounts.lift (advance_accounts
      hsilent.isEof_eq_false)).bind fun _ _ _ _ => .pure trivial
  unfold keywordOperand
  split
  · exact leafOperand_brings (.lift (skip_accounts hsilent))
      fun _ => hg.law.makes trivial .nil
  · refine .skip (.lift (skip_accounts hsilent)) fun token t _ _ => ?_
    exact .look t.current rfl (.ite
      (fun _ => .pure (hg.law.makes trivial .nil))
      (fun _ => unexpected_accounts _))
  · exact hliteral
  · exact hliteral
  · exact hliteral
  · exact hliteral
  · exact .look s.here rfl ((functionExpression_brings hg _ _).mono
      fun _ h => h.2)
  · exact (classDefinition_brings hg _).bind fun _ _ _ => .pure id
  · exact unexpected_accounts _

/-- **An operand without operators.** -/
theorem primary_brings :
    Brings root last (primary g) ctx s
      (fun e => L.made k (.expression e)) := by
  have hliteral {p : Parse Literal} {Q : Literal → State → Prop}
      (hp : Accounts root p ctx s Q) : Brings root last
      (do return Expression.literal (← p)) ctx s
      (fun e => L.made k (.expression e)) :=
    leafOperand_brings hp fun _ =>
      hg.law.makes trivial (.one (hg.law.literal _))
  have hread {kind : LiteralKind} {tokenKind : TokenKind}
      (hk : s.current.kind = tokenKind) (hne : tokenKind ≠ .eof) :
      Accounts root (literal kind) ctx s (fun _ _ => True) :=
    (Accounts.lift (advance_accounts (isEof_eq_false hk hne))).bind
      fun _ _ _ _ => .pure trivial
  refine .look s.current rfl ?_
  split
  case h_1 => exact nameOperand_brings hg
  case h_2 hk => exact hliteral (hread hk (by simp))
  case h_3 hk => exact hliteral (hread hk (by simp))
  case h_4 hk => exact hliteral (hread hk (by simp))
  case h_5 hk => exact hliteral (regexLiteral_accounts hk)
  case h_6 hk => exact hliteral (rescannedRegex_accounts (.inl hk))
  case h_7 hk => exact hliteral (rescannedRegex_accounts (.inr hk))
  case h_8 => exact parenthesizedOrArrow_brings hg
  case h_9 => exact arrayLiteral_brings hg
  case h_10 => exact objectLiteral_brings hg
  case h_11 hk => exact keywordOperand_brings hg hk
  case h_12 => exact unexpected_accounts _

end Parse

end ScriptTree
