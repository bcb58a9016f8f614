import ScriptTree.Parse.Grammar
import ScriptTree.Proofs.Parse.Recovery

/-!
# Grammars that read what they should

A grammar is **sound** if each of its productions reads a tree in its
place, or trees that stand in a row. A production over a sound grammar
does the same, and that is all the recursion of the grammar comes to: a
grammar of one more level is sound if the one of one less is.

Statement lists are dealt with here, and of them more is said. A tolerant
parse does not leave a list before its end, and the statements of a list
leave out nothing of its text but filler and comments.
-/

namespace ScriptTree

/-- **Whether the expression is no operation of any kind**, so that
nothing about it depends on how operators bind. -/
def Expression.isPrimary : Expression → Bool
  | call .. | newObject .. | await .. | member .. | subscript ..
  | assignment .. | compoundAssignment .. | conditional .. | binary ..
  | unary .. | update .. | sequence .. => false
  | _ => true

/-- The nodes of the header of a loop. -/
def ForHeader.parts : ForHeader → List Node
  | counting init? test? update? =>
    init?.toList.map ForInit.part ++ test?.toList.map .expression
      ++ update?.toList.map .expression
  | overKeys _ left right | overValues _ left right =>
    [.expression left, .expression right]

variable {root ctx : Context} {s t : State} {α : Type}
  {P : Expression → Prop}

/-- **Something read as an item**: the item is in its place with all its
nodes. -/
def AsItem (root : Context) (P : Expression → Prop)
    (mk : α → Span × List Node) (a : α) (b e : Nat) : Prop :=
  Node.ItemFills root.source P (mk a) b e

/-- A binding as an item of its declaration. -/
def Declarator.item (d : Declarator) : Span × List Node := (d.span, d.parts)

/-- A member as an item of its object. -/
def ObjectMember.item (m : ObjectMember) : Span × List Node :=
  (m.span, m.parts)

/-- **An operand has been read**: an expression in its place that is no
operation. -/
def State.ReadsOperand (root : Context) (P : Expression → Prop) (b : Nat)
    (e : Expression) (t : State) : Prop :=
  State.Reads (As root P .expression) b e t ∧ e.isPrimary = true

open Parse State in
/-- **A grammar that reads what it should.** -/
structure Grammar.Sound (root : Context) (P : Expression → Prop)
    (g : Grammar) : Prop where
  /-- What is no operation is as it should be. -/
  primary {e : Expression} (h : e.isPrimary = true) : P e
  /-- A statement is read. -/
  statement {ctx : Context} {s : State} :
    Ensures root g.statement ctx s (Reads (As root P .statement) s.here)
  /-- A block is read. -/
  block {ctx : Context} {s : State} :
    Ensures root g.block ctx s (Reads (As root P .block) s.here)
  /-- An expression is read. -/
  expression (min : Precedence) {ctx : Context} {s : State} :
    Ensures root (g.expression min) ctx s
      (Reads (As root P .expression) s.here)
  /-- An expression is read between brackets. -/
  bracketed (point : TolerantPoint) (closer : Punctuator) {ctx : Context}
    {s : State} :
    Ensures root (g.bracketed point closer) ctx s
      (Reads (As root P .expression) s.here)
  /-- An expression is read as a first branch. -/
  consequent {ctx : Context} {s : State} :
    Ensures root g.consequent ctx s (Reads (As root P .expression) s.here)
  /-- Arguments are read. -/
  arguments {ctx : Context} {s : State} :
    Ensures root g.arguments ctx s
      (fun es t => Parts root P s.here (es.map .expression) t)
  /-- Elements are read. -/
  elements {ctx : Context} {s : State} :
    Ensures root g.elements ctx s
      (fun es t => Parts root P s.here (es.map .expression) t)
  /-- Members are read. -/
  members {ctx : Context} {s : State} :
    Ensures root g.members ctx s
      (ReadsRow (AsItem root P ObjectMember.item) s.here)
  /-- Methods are read. -/
  methods {ctx : Context} {s : State} :
    Ensures root g.methods ctx s
      (fun ms t => Parts root P s.here (ms.map .method) t)
  /-- Parameters are read. -/
  parameters {ctx : Context} {s : State} :
    Ensures root g.parameters ctx s
      (fun ids t => Parts root P s.here (ids.map .identifier) t)
  /-- The parts of a header are read. -/
  forHeader {ctx : Context} {s : State} :
    Ensures root g.forHeader ctx s
      (fun header t => Parts root P s.here header.parts t)
  /-- A name is read. -/
  catchParameter {ctx : Context} {s : State} :
    Ensures root g.catchParameter ctx s
      (Reads (As root P .identifier) s.here)
  /-- Names are read. -/
  importSpecifiers {ctx : Context} {s : State} :
    Ensures root g.importSpecifiers ctx s
      (fun xs t => Parts root P s.here (xs.flatMap ImportSpecifier.parts) t)
  /-- Names are read. -/
  exportSpecifiers {ctx : Context} {s : State} :
    Ensures root g.exportSpecifiers ctx s
      (fun xs t => Parts root P s.here (xs.flatMap ExportSpecifier.parts) t)

/-- **The grammar of no levels is sound**: it reads nothing. -/
theorem Grammar.exhausted_sound
    (hP : ∀ e : Expression, e.isPrimary = true → P e) :
    exhausted.Sound root P where
  primary := hP _
  statement := Parse.tooDeep_ensures
  block := Parse.tooDeep_ensures
  expression _ := Parse.tooDeep_ensures
  bracketed _ _ := Parse.tooDeep_ensures
  consequent := Parse.tooDeep_ensures
  arguments := Parse.tooDeep_ensures
  elements := Parse.tooDeep_ensures
  members := Parse.tooDeep_ensures
  methods := Parse.tooDeep_ensures
  parameters := Parse.tooDeep_ensures
  forHeader := Parse.tooDeep_ensures
  catchParameter := Parse.tooDeep_ensures
  importSpecifiers := Parse.tooDeep_ensures
  exportSpecifiers := Parse.tooDeep_ensures

namespace Grammar.Sound

variable {g : Grammar} (hg : g.Sound root P)

include hg

/-- An error node may stand for an expression. -/
theorem mend_expression (node : ErrorNode) (b e : Nat) (_ : b < e)
    (h : As root P .error node b e) :
    As root P .expression (.error node) b e :=
  h.wrap rfl rfl rfl (hg.primary rfl)

end Grammar.Sound

/-- An error node may stand for a binding. -/
theorem mend_declarator (node : ErrorNode) (b e : Nat) (hbe : b < e)
    (h : As root P .error node b e) :
    AsItem root P Declarator.item (.error node) b e := by
  refine ⟨h.spans, ?_, .single h (Nat.le_refl b) hbe (Nat.le_refl e)⟩
  exact h.placed.fits

/-- An error node may stand for a member. -/
theorem mend_member (node : ErrorNode) (b e : Nat) (hbe : b < e)
    (h : As root P .error node b e) :
    AsItem root P ObjectMember.item (.error node) b e := by
  refine ⟨h.spans, ?_, .single h (Nat.le_refl b) hbe (Nat.le_refl e)⟩
  exact h.placed.fits

namespace Parse

open ScriptTree.Action

variable {g : Grammar} (hg : g.Sound root P)

include hg

/-! ## The productions in common use -/

theorem expression_ensures :
    Ensures root (expression g) ctx s
      (State.Reads (As root P .expression) s.here) :=
  hg.expression _

theorem assignment_ensures :
    Ensures root (assignment g) ctx s
      (State.Reads (As root P .expression) s.here) :=
  hg.expression _

theorem statement_ensures :
    Ensures root (statement g) ctx s
      (State.Reads (As root P .statement) s.here) := by
  refine .look s.current rfl ?_
  refine (Ensures.lift (record_ensures _)).bind fun _ t _ hstill => ?_
  rw [← hstill.here_eq]
  exact hg.statement

theorem expressionBefore_ensures (closer : Punctuator) :
    Ensures root (expressionBefore g closer) ctx s
      (State.Reads (As root P .expression) s.here) := by
  refine (expression_ensures hg).bind fun e t _ he => ?_
  refine .look t.current rfl (.ite (fun _ => .pure he) (fun _ => ?_))
  exact unexpected_ensures _

/-- **A condition** is an expression somewhere in what is read. -/
theorem condition_ensures :
    Ensures root (condition g) ctx s
      (fun e t => State.Parts root P s.here [.expression e] t) := by
  refine (expectPunctuator_ensures .lParen).discard.bind fun _ t hst _ => ?_
  refine (hg.bracketed .parenthesized .rParen).bind fun e u htu he => ?_
  refine (expectPunctuator_ensures .rParen).discard.bind fun _ v huv _ => ?_
  exact .pure (((he.parts htu).sooner hst.here_le).later huv)

theorem parameterList_ensures :
    Ensures root (parameterList g) ctx s
      (fun ids t => State.Parts root P s.here (ids.map .identifier) t) := by
  refine (expectPunctuator_ensures .lParen).discard.bind fun _ t hst _ => ?_
  exact hg.parameters.mono (fun _ _ _ h => h.sooner hst.here_le)

/-! ## Statement lists -/

omit hg

/-- **Statements that leave out nothing** of the text from an offset up to
the current token, filler and comments aside. -/
def CoveredBy (root : Context) (b : Nat) (xs : List Statement)
    (s : State) : Prop :=
  Covers (xs.map Statement.span ++ s.commentSpans) root.source b s.here

/-- Another statement covers what has been read of it. -/
theorem CoveredBy.concat {b : Nat} {xs : List Statement} {x : Statement}
    (hxs : CoveredBy root b xs s) (h : s.Leads root t)
    (hkeep : root.options.collectComments = true)
    (hx : State.Reads (As root P .statement) s.here x t) :
    CoveredBy root b (xs ++ [x]) t := by
  have hspan : x.span = ⟨s.here, t.consumedTo⟩ := hx.2.spans
  have hfront : ∀ y ∈ xs.map Statement.span ++ s.commentSpans,
      y ∈ (xs ++ [x]).map Statement.span ++ t.commentSpans := by
    intro y hy
    rw [List.map_append, List.mem_append, List.mem_append]
    refine (List.mem_append.1 hy).imp .inl (fun hy => ?_)
    exact (h.comments_prefix.map Comment.span).subset hy
  have hlast : ∀ y ∈ [x.span],
      y ∈ (xs ++ [x]).map Statement.span ++ t.commentSpans := by
    intro y hy
    rw [List.map_append, List.mem_append, List.mem_append]
    exact .inl (.inr hy)
  have hcut : IsCut root.source x.span.stop := by
    rw [hspan]
    exact h.good.isCut
  have hread := (Covers.of_isCut hcut).mono hlast
  simp only [hspan] at hread
  have hbehind := (h.good.covers hkeep).mono
    (fun y => List.mem_append_right ((xs ++ [x]).map Statement.span))
  exact ((hxs.mono hfront).trans hread).trans hbehind

/-- **What a run of the loop over the statements of a list ensures.** A
tolerant parse takes as many turns as there are statements, and there are
no more of them than there are bytes to read. -/
structure ListRead (root : Context) (P : Expression → Prop)
    (ctx : Context) (turns b : Nat) (found : List Statement) (s : State)
    (xs : List Statement) (t : State) : Prop where
  /-- The statements stand in a row. -/
  row : State.ReadsRow (As root P .statement) b xs t
  /-- A tolerant parse does not leave the list before its end. -/
  atListEnd : root.options.tolerant = true →
    byteLength root.source < root.turns →
    byteLength root.source - s.here < turns → t.atListEnd ctx = true
  /-- A tolerant parse that keeps comments leaves out nothing. -/
  covered : root.options.tolerant = true →
    byteLength root.source < root.turns →
    root.options.collectComments = true →
    CoveredBy root b found s → CoveredBy root b xs t

/-- A run of the loop may begin with a statement. -/
theorem ListRead.after {turns b : Nat} {found xs : List Statement}
    {x : Statement} {u : State} (hst : s.Leads root t)
    (hx : State.Reads (As root P .statement) s.here x t)
    (h : ListRead root P ctx turns b (found ++ [x]) t xs u) :
    ListRead root P ctx (turns + 1) b found s xs u := by
  refine ⟨h.row, fun htolerant hroot hturns => ?_, ?_⟩
  · have hpast := hx.1
    have hle := hst.good.consumedTo_le
    have hhere := hst.good.isCut_here.le
    exact h.atListEnd htolerant hroot (by omega)
  · intro htolerant hroot hkeep hfound
    exact h.covered htolerant hroot hkeep (hfound.concat hst hkeep hx)

include hg

theorem statementsFrom_ensures (turns : Nat) {b : Nat}
    {found : List Statement}
    (hfound : State.ReadsRow (As root P .statement) b found.reverse s) :
    Action.Ensures root (statementsFrom g turns found) ctx s
      (ListRead root P ctx turns b found.reverse s) := by
  -- On the turns, with a row of statements before the current token.
  induction turns generalizing s found with
  | zero => exact .pure ⟨hfound, fun _ _ h => (nomatch h), fun _ _ _ h => h⟩
  | succ turns ih =>
    refine .look s rfl (.look (s.atListEnd ctx) rfl (.of_good fun _ hs => ?_))
    refine .ite (fun hend => ?_) (fun hend => ?_)
    · refine .pure ⟨hfound, fun htolerant _ _ => ?_, fun _ _ _ h => h⟩
      rw [hs.aborted_eq htolerant] at hend
      exact hend
    have heof : s.current.isEof = false := by
      simp only [State.atListEnd, Bool.or_eq_true, not_or,
        Bool.not_eq_true] at hend
      exact hend.2.1
    refine .look s.here rfl ?_
    have hnext : ∀ {x u}, s.Leads root u →
        State.Reads (As root P .statement) s.here x u →
        Action.Ensures root (statementsFrom g turns (x :: found)) ctx u
          (ListRead root P ctx (turns + 1) b found.reverse s) := by
      intro x u hsu hx
      have hfound := hfound.concat hsu hx
      rw [← List.reverse_cons] at hfound
      refine (ih hfound).mono (fun xs v _ h => .after hsu hx ?_)
      rwa [List.reverse_cons] at h
    refine (statement_ensures hg).attempt.bind fun r t hst hr => ?_
    cases r with
    | ok x => exact hnext hst (hr x rfl)
    | error error =>
      refine (abandon_ensures P error hs.isCut_here
        hst.here_eq_or_past).bind fun r u htu hr => ?_
      cases r with
      | some x => exact hnext (hst.trans htu) (hr.1 x rfl)
      | none =>
        -- Only a parse that has ended takes nothing of a statement.
        have hfalse : root.options.tolerant = true →
            byteLength root.source < root.turns → False := by
          intro htolerant hroot
          have hgoing := Bool.eq_false_iff.1
            (htu.good.aborted_eq htolerant)
          obtain ⟨hhere, hend⟩ := (hr.2 rfl (by omega)).resolve_left hgoing
          have hlt := hs.here_lt_stop heof
          have hle := (hs.current_occupies heof).2.1.stop_le
          have hlen := hst.good.here_of_eof hend
          omega
        refine (ih (hfound.later (hst.trans htu))).mono
          (fun xs v _ h => ?_)
        exact ⟨h.row, fun h₁ h₂ => (hfalse h₁ h₂).elim,
          fun h₁ h₂ => (hfalse h₁ h₂).elim⟩

/-- **A statement list** is read to its end by a tolerant parse, and its
statements leave out nothing. -/
theorem statementList_ensures (listEnd : ListEnd) :
    Action.Ensures root (statementList g listEnd) ctx s
      (ListRead root P (ctx.inList listEnd) ctx.turns s.here [] s) := by
  intro hctx hs
  exact statementsFrom_ensures hg ctx.turns (.nil (Nat.le_refl _))
    (hctx.inList listEnd) hs

end Parse

end ScriptTree
