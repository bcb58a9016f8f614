import ScriptTree.Parse.Grammar
import ScriptTree.Proofs.Account.Action
import ScriptTree.Proofs.Parse.Grammar
import ScriptTree.Proofs.Parse.Recovery

/-!
# Grammars that account for what they read

An error node is never made without an error being taken down. So where
nothing has gone wrong there is none, and a production at a tolerant point
accounts for what it does anywhere else: be the answer mended, nothing is
claimed of it.

A grammar **gathers** what it should if each of its productions spends the
tokens it reads on the leaves of its answer. As with soundness, a production
over such a grammar does the same, and the grammar of one more level is such
a grammar if the one of one less is.

That the grammar is sound is part of it. Where something is no target of an
assignment that is taken down with the span of what was read, and it is
soundness that puts this span into the text.
-/

namespace ScriptTree.Parse

open ScriptTree.Action State

variable {root ctx : Context} {s : State} {α : Type}

/-! ## At a tolerant point -/

/-- What is known stays known while tokens are passed over. -/
theorem skipTo_accounts (point : TolerantPoint) (turns depth : Nat)
    (taken : Bool) :
    Action.Accounts root (skipTo point turns depth taken) ctx s
      (fun _ t => s.known ⊆ t.known) := by
  induction turns generalizing s depth taken with
  | zero => exact .pure (fun _ h => h)
  | succ turns ih =>
    refine .look s rfl (.look ctx rfl ?_)
    refine .ite (fun _ => .pure (fun _ h => h)) (fun heof => ?_)
    refine .ite (fun _ => .pure (fun _ h => h)) (fun _ => ?_)
    refine ((advance_accounts (Bool.eq_false_iff.2 heof)).mono
      (fun _ _ _ h => h.2)).discard.bind fun _ t _ htaken => ?_
    refine (ih _ true).mono (fun _ u _ htu x hx => htu ?_)
    exact mem_known_of_taken (htaken ▸ hx)

/-- **An error that is mended** is taken down. -/
theorem mend_accounts (point : TolerantPoint) (start : Nat)
    {error : ParseError} (h : s.Sound root → error.Founded root s) :
    Accounts root (mend point start error) ctx s
      (fun _ t => ¬t.Clean root) := by
  refine .look ctx rfl (.look s rfl ?_)
  dsimp only
  refine .ite (fun _ => ?_) (fun _ => ?_)
  · exact (Accounts.throw h (Q := fun _ _ => False)).bind
      (fun _ _ _ h => h.elim)
  refine .of_reached (fun _ hs => ?_)
  refine (Accounts.lift (skipTo_accounts point _ 0 _)).bind ?_
  intro taken t _ hknown
  have hfounded := (h hs.sound).mono hknown
  refine .ite (fun _ => ?_) (fun _ => ?_)
  · exact (Accounts.throw (fun _ => hfounded) (Q := fun _ _ => False)).bind
      (fun _ _ _ h => h.elim)
  refine .look (t.spanFrom start) rfl ?_
  refine (Accounts.lift (record_accounts _)).bind fun _ u _ hu => ?_
  have hfounded : error.Founded root u := by
    refine hfounded.mono ?_
    rw [hu.2]
    exact fun _ h => h
  refine (Accounts.lift (reportError_accounts (by decide)
    (fun _ => hfounded))).bind fun _ v _ hv => ?_
  exact .lift (.look ctx rfl (.pure hv))

variable [Mendable α] {parts : α → List Node}

/-- **At a tolerant point** the same is accounted for as elsewhere. -/
theorem tolerant_accounts (point : TolerantPoint) {p : Parse α}
    (hp : Accounts root p ctx s (fun a t => s.Gathers root (parts a) t)) :
    Accounts root (tolerant point p) ctx s
      (fun a t => s.Gathers root (parts a) t) := by
  intro hctx hs
  obtain ⟨hst, hQ, hfounded⟩ := hp hctx hs
  rw [tolerant_run]
  generalize p ctx s = r at hst hQ hfounded
  obtain ⟨error | a, t⟩ := r
  · have hmended : Accounts root
        (Mendable.ofError <$> mend point s.here error : Parse α) ctx t
        (fun _ u => ¬u.Clean root) :=
      .map (mend_accounts point _ (fun _ => hfounded error rfl))
    obtain ⟨htu, hclean, hfounded⟩ := hmended hctx (hs.acts hst)
    refine ⟨hst.trans htu, fun a ha => ?_, hfounded⟩
    exact .of_not_clean (hst.trans htu) (hclean a ha)
  · exact ⟨hst, hQ, hfounded⟩

theorem missingSeparator_accounts (parts : α → List Node)
    (point : TolerantPoint) (expected : String) :
    Accounts root (missingSeparator point expected : Parse α) ctx s
      (fun a t => s.Gathers root (parts a) t) := by
  refine .look s.current rfl ?_
  refine (mend_accounts point _ (fun hs =>
    ParseError.ofToken_founded hs List.mem_cons_self expected)).bind
    fun node t hst ht => ?_
  exact .pure (.of_not_clean hst ht)

/-! ## Lists with separators -/

variable {item : Parse α} (hitem : ∀ s, Accounts root item ctx s
  (fun a t => s.Gathers root (parts a) t))

include hitem

theorem separatedFrom_accounts (point : TolerantPoint)
    (closer : Punctuator) (turns : Nat) {r : State} {found : List α}
    (hfound : r.Gathers root (found.reverse.flatMap parts) s) :
    Accounts root (separatedFrom point closer item turns found) ctx s
      (fun xs t => r.Gathers root (xs.flatMap parts) t) := by
  -- A turn adds an item, and another one where a separator is missing.
  induction turns generalizing s found with
  | zero => exact .pure hfound
  | succ turns ih =>
    refine .look (s.current.isPunctuator closer) rfl
      (.ite (fun _ => .pure hfound) (fun _ => ?_))
    refine (tolerant_accounts point (hitem s)).bind fun x t _ hx => ?_
    refine (Accounts.lift (eat_accounts .comma)).bind fun _ u _ hu => ?_
    have hfound := (hfound.concat hx).later hu
    refine .ite (fun _ => ih hfound) (fun _ => ?_)
    refine .look (u.current.isPunctuator closer) rfl
      (.ite (fun _ => ih hfound) (fun _ => .ite (fun _ => ?_) (fun _ => ?_)))
    · refine (Accounts.lift (eat_accounts .comma).discard).bind
        fun _ v _ hv => ?_
      exact ih (hfound.later hv)
    · refine (missingSeparator_accounts parts point _).bind
        fun skipped v _ hv => ?_
      refine (Accounts.lift (eat_accounts .comma).discard).bind
        fun _ w _ hw => ?_
      exact ih ((hfound.concat hv).later hw)

/-- **Items with commas between them.** -/
theorem separated_accounts (point : TolerantPoint) (closer : Punctuator) :
    Accounts root (separated point closer item) ctx s
      (fun xs t => s.Gathers root (xs.flatMap parts) t) :=
  .look ctx rfl (separatedFrom_accounts hitem point closer _
    (.refl root s))

omit hitem

/-! ## Anywhere else -/

theorem skipStatement_accounts (turns depth : Nat) (taken : Bool) :
    Action.Accounts root (skipStatement turns depth taken) ctx s
      (fun _ _ => True) := by
  induction turns generalizing s depth taken with
  | zero => exact .pure trivial
  | succ turns ih =>
    refine .look s rfl (.look ctx rfl ?_)
    refine .ite (fun _ => .pure trivial) (fun h => ?_)
    refine .ite (fun _ => .pure trivial) (fun _ => ?_)
    have heof : s.current.isEof = false := by
      simp only [Bool.or_eq_true, not_or, Bool.not_eq_true] at h
      exact h.2
    refine Action.Accounts.bind (Q := fun _ _ => True)
      ((advance_accounts heof).mono (fun _ _ _ _ => trivial)).discard
      fun _ t _ _ => ?_
    exact .ite (fun _ => .pure trivial) (fun _ => ih _ true)

/-- **A statement that is given up** is given up with an error. -/
theorem abandon_accounts (start : Nat) {error : ParseError}
    (h : s.Sound root → error.Founded root s) :
    Action.Accounts root (abandon start error) ctx s
      (fun _ t => ¬t.Clean root) := by
  refine (reportError_accounts (by decide) h).bind
    fun _ t _ hclean => ?_
  refine (record_accounts _).bind fun _ u htu _ => ?_
  refine .look ctx rfl (.look u.here rfl ?_)
  refine (skipStatement_accounts _ 0 _).bind fun _ v huv _ => ?_
  have hclean : ¬v.Clean root := fun hv =>
    hclean (Acts.clean (htu.trans huv) hv)
  refine .look (v.spanFrom start) rfl (.ite (fun _ => .pure hclean)
    (fun _ => .look _ rfl (.pure hclean)))

end ScriptTree.Parse

namespace ScriptTree

variable {root ctx : Context} {s : State}

open Parse State in
/-- **A grammar that accounts for what it reads.** -/
structure Grammar.Gathers (root : Context) (g : Grammar) : Prop where
  /-- It reads what it should. -/
  sound : g.Sound root (fun _ => True)
  /-- A statement is accounted for. -/
  statement {ctx : Context} {s : State} :
    Accounts root g.statement ctx s
      (fun x t => s.Gathers root [.statement x] t)
  /-- A block is accounted for. -/
  block {ctx : Context} {s : State} :
    Accounts root g.block ctx s (fun b t => s.Gathers root [.block b] t)
  /-- An expression is accounted for. -/
  expression (min : Precedence) {ctx : Context} {s : State} :
    Accounts root (g.expression min) ctx s
      (fun e t => s.Gathers root [.expression e] t)
  /-- An expression between brackets is accounted for. -/
  bracketed (point : TolerantPoint) (closer : Punctuator) {ctx : Context}
    {s : State} :
    Accounts root (g.bracketed point closer) ctx s
      (fun e t => s.Gathers root [.expression e] t)
  /-- A first branch is accounted for. -/
  consequent {ctx : Context} {s : State} :
    Accounts root g.consequent ctx s
      (fun e t => s.Gathers root [.expression e] t)
  /-- Arguments are accounted for. -/
  arguments {ctx : Context} {s : State} :
    Accounts root g.arguments ctx s
      (fun es t => s.Gathers root (es.map .expression) t)
  /-- Elements are accounted for. -/
  elements {ctx : Context} {s : State} :
    Accounts root g.elements ctx s
      (fun es t => s.Gathers root (es.map .expression) t)
  /-- Members are accounted for. -/
  members {ctx : Context} {s : State} :
    Accounts root g.members ctx s
      (fun ms t => s.Gathers root (ms.flatMap ObjectMember.parts) t)
  /-- Methods are accounted for. -/
  methods {ctx : Context} {s : State} :
    Accounts root g.methods ctx s
      (fun ms t => s.Gathers root (ms.map .method) t)
  /-- Parameters are accounted for. -/
  parameters {ctx : Context} {s : State} :
    Accounts root g.parameters ctx s
      (fun ids t => s.Gathers root (ids.map .identifier) t)
  /-- The parts of a header are accounted for. -/
  forHeader {ctx : Context} {s : State} :
    Accounts root g.forHeader ctx s
      (fun header t => s.Gathers root header.parts t)
  /-- A name is accounted for. -/
  catchParameter {ctx : Context} {s : State} :
    Accounts root g.catchParameter ctx s
      (fun id t => s.Gathers root [.identifier id] t)
  /-- Names are accounted for. -/
  importSpecifiers {ctx : Context} {s : State} :
    Accounts root g.importSpecifiers ctx s
      (fun xs t => s.Gathers root (xs.flatMap ImportSpecifier.parts) t)
  /-- Names are accounted for. -/
  exportSpecifiers {ctx : Context} {s : State} :
    Accounts root g.exportSpecifiers ctx s
      (fun xs t => s.Gathers root (xs.flatMap ExportSpecifier.parts) t)

/-- **The grammar of no levels** has nothing to account for. -/
theorem Grammar.exhausted_gathers : exhausted.Gathers root where
  sound := exhausted_sound (fun _ _ => trivial)
  statement := Parse.tooDeep_accounts
  block := Parse.tooDeep_accounts
  expression _ := Parse.tooDeep_accounts
  bracketed _ _ := Parse.tooDeep_accounts
  consequent := Parse.tooDeep_accounts
  arguments := Parse.tooDeep_accounts
  elements := Parse.tooDeep_accounts
  members := Parse.tooDeep_accounts
  methods := Parse.tooDeep_accounts
  parameters := Parse.tooDeep_accounts
  forHeader := Parse.tooDeep_accounts
  catchParameter := Parse.tooDeep_accounts
  importSpecifiers := Parse.tooDeep_accounts
  exportSpecifiers := Parse.tooDeep_accounts

namespace Parse

open ScriptTree.Action State

variable {g : Grammar} (hg : g.Gathers root)

include hg

/-! ## The productions in common use -/

theorem expression_accounts :
    Accounts root (expression g) ctx s
      (fun e t => s.Gathers root [.expression e] t) :=
  hg.expression _

theorem assignment_accounts :
    Accounts root (assignment g) ctx s
      (fun e t => s.Gathers root [.expression e] t) :=
  hg.expression _

theorem statement_accounts :
    Accounts root (statement g) ctx s
      (fun x t => s.Gathers root [.statement x] t) := by
  refine .look s.current rfl ?_
  refine (Accounts.lift (record_accounts _)).bind fun _ t _ ht => ?_
  exact hg.statement.mono (fun _ _ _ h => ht.1.trans h)

theorem expressionBefore_accounts (closer : Punctuator) :
    Accounts root (expressionBefore g closer) ctx s
      (fun e t => s.Gathers root [.expression e] t) := by
  refine (expression_accounts hg).bind fun e t _ he => ?_
  refine .look t.current rfl (.ite (fun _ => .pure he) (fun _ => ?_))
  exact unexpected_accounts _

theorem condition_accounts :
    Accounts root (condition g) ctx s
      (fun e t => s.Gathers root [.expression e] t) := by
  refine (expectPunctuator_accounts .lParen).discard.bind
    fun _ t _ ht => ?_
  refine (hg.bracketed .parenthesized .rParen).bind fun e u _ he => ?_
  refine (expectPunctuator_accounts .rParen).discard.bind
    fun _ v _ hv => ?_
  exact .pure ((ht.trans he).later hv)

theorem parameterList_accounts :
    Accounts root (parameterList g) ctx s
      (fun ids t => s.Gathers root (ids.map .identifier) t) := by
  refine (expectPunctuator_accounts .lParen).discard.bind
    fun _ t _ ht => ?_
  exact hg.parameters.mono (fun _ _ _ h => ht.trans h)

/-! ## Statement lists -/

theorem statementsFrom_accounts (turns : Nat) {r : State}
    {found : List Statement}
    (hfound : r.Gathers root (found.reverse.map .statement) s) :
    Action.Accounts root (statementsFrom g turns found) ctx s
      (fun xs t => r.Gathers root (xs.map .statement) t) := by
  induction turns generalizing s found with
  | zero => exact .pure hfound
  | succ turns ih =>
    refine .look s rfl (.look (s.atListEnd ctx) rfl ?_)
    refine .ite (fun _ => .pure hfound) (fun _ => .look s.here rfl ?_)
    refine (statement_accounts hg).attempt.bind fun a t hst hr => ?_
    cases a with
    | ok x => exact ih (hfound.concat_node (hr.1 x rfl))
    | error error =>
      refine (abandon_accounts _ (fun _ => hr.2 error rfl)).bind
        fun a u htu hclean => ?_
      -- What has been given up need not be accounted for.
      have hacts := (hfound.acts.trans hst).trans htu
      cases a with
      | some x => exact ih (.of_not_clean hacts hclean)
      | none => exact ih (.of_not_clean hacts hclean)

/-- **A statement list** is accounted for. -/
theorem statementList_accounts (listEnd : ListEnd) :
    Action.Accounts root (statementList g listEnd) ctx s
      (fun xs t => s.Gathers root (xs.map .statement) t) := by
  intro hctx hs
  exact statementsFrom_accounts hg ctx.turns (.refl root s)
    (hctx.inList listEnd) hs

end Parse

end ScriptTree
