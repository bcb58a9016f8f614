import ScriptTree.Parse.Declaration
import ScriptTree.Proofs.Parse.Expression

/-!
# Terminators and declarations in their places

A terminator belongs to the statement before it: it is read before the
span of the statement is taken. Of the terminator itself nothing has to
be known but that it is read a token at a time.
-/

namespace ScriptTree.Parse

open ScriptTree.Action

variable {root ctx : Context} {s : State} {P : Expression → Prop}
  {g : Grammar}

/-! ## The end of a statement -/

theorem reportMissingTerminator_ensures (atEnd : Bool) :
    Action.Ensures root (reportMissingTerminator atEnd) ctx s
      (fun _ _ => True) := by
  refine .look s.current rfl (.ite (fun _ => .pure trivial) (fun _ => ?_))
  exact (report_ensures _ _ _ _).mono (fun _ _ _ _ => trivial)

theorem terminator_ensures (mayTrail : Bool) :
    Action.Ensures root (terminator mayTrail) ctx s (fun _ _ => True) := by
  refine (eat_ensures .semicolon).bind fun _ t _ _ => ?_
  refine .ite (fun _ => .pure trivial) (fun _ => ?_)
  refine .look t.newlineBefore rfl (.ite (fun _ => .pure trivial) (fun _ => ?_))
  refine .look (t.atListEnd ctx) rfl (.look ctx rfl ?_)
  refine .ite (fun _ => .pure trivial) (fun _ => ?_)
  exact reportMissingTerminator_ensures _

theorem declarationEnd_ensures :
    Action.Ensures root declarationEnd ctx s (fun _ _ => True) := by
  refine .look s.newlineBefore rfl (.ite (fun _ => .pure trivial) (fun _ => ?_))
  exact (eat_ensures .semicolon).discard.mono (fun _ _ _ _ => trivial)

theorem expressionEnd_ensures (e : Expression) :
    Action.Ensures root (expressionEnd e) ctx s (fun _ _ => True) := by
  refine .ite (fun _ => ?_) (fun _ => .ite (fun _ => declarationEnd_ensures)
    (fun _ => terminator_ensures true))
  exact (eat_ensures .semicolon).discard.mono (fun _ _ _ _ => trivial)

/-- A statement with its terminator. -/
theorem terminated {mayTrail : Bool} {α : Type} {k : Unit → Parse α}
    {Q : α → State → Prop}
    (hk : ∀ t, s.Leads root t → Ensures root (k ()) ctx t Q) :
    Ensures root (liftM (terminator mayTrail) >>= k) ctx s Q :=
  (Ensures.lift (terminator_ensures mayTrail)).bind (fun _ t h _ => hk t h)

/-! ## Statements that begin with a word -/

/-- **A statement behind a word**: the word is read, then the parts of
the statement, and its span is from the word to the last of them. -/
theorem behindWord {x : Statement} {token : Token} {t u : State}
    (hs : s.Good root) (hst : s.Leads root t) (htook : s.Took token t)
    (htu : t.Leads root u) (hplain : (Node.statement x).isPlain = true)
    (hspan : x.span = u.spanFrom token.span.start)
    (hparts : State.Parts root P t.here (Node.statement x).children u) :
    State.Reads (As root P .statement) s.here x u := by
  have hpast := Nat.lt_of_lt_of_le htook.past htu.consumedTo_le
  rw [htook.start_eq, State.spanFrom_eq hpast] at hspan
  exact htu.node hs.isCut_here hpast hplain hspan
    (hparts.sooner hst.here_le) trivial

/-! ## Declarations of variables -/

/-- A word that opens a declaration is not the end of the text. -/
theorem isEof_of_varKind? {token : Token} {kind : VarKind}
    (h : varKind? token.kind = some kind) : token.isEof = false := by
  refine Bool.eq_false_iff.2 (fun heof => ?_)
  rw [show token.kind = .eof from of_decide_eq_true heof] at h
  exact nomatch h

theorem anotherBinding_ensures (mended : Bool) :
    Action.Ensures root (anotherBinding mended) ctx s (fun _ _ => True) := by
  refine (eat_ensures .comma).bind fun _ t _ _ => ?_
  exact .ite (fun _ => .pure trivial) (fun _ => .look t rfl (.pure trivial))

variable (hg : g.Sound root P)

include hg

theorem initializer?_ensures :
    Ensures root (initializer? g) ctx s (fun e? t =>
      State.Parts root P s.here (e?.toList.map .expression) t) := by
  refine (Ensures.lift (eat_ensures .assign)).bind fun _ t hst _ => ?_
  refine .ite (fun _ => ?_) (fun _ => .pure (.nil hst.here_le))
  refine (assignment_ensures hg).bind fun e u htu he => ?_
  exact .pure ((he.parts htu).sooner hst.here_le)

/-- **One binding** is an item of its declaration. -/
theorem binding_ensures :
    Ensures root (binding g) ctx s
      (State.Reads (AsItem root P Declarator.item) s.here) := by
  refine .of_good (fun _ hs => ?_)
  refine (identifier_ensures P).bind fun id t hst hid => ?_
  refine (initializer?_ensures hg).bind fun init? u htu hinit => ?_
  refine .look (u.spanFrom id.span.start) rfl ?_
  have hparts := (hid.parts hst).append htu hinit
  rw [show id.span = _ from hid.2.spans, State.spanFrom_eq hparts.past]
  exact .pure ⟨hparts.past, rfl, htu.fits hs.isCut_here hparts.past,
    hparts.row⟩

theorem bindingsFrom_ensures (turns : Nat) {b : Nat}
    {found : List Declarator}
    (hfound : State.ReadsRow (AsItem root P Declarator.item) b
      found.reverse s) :
    Ensures root (bindingsFrom g turns found) ctx s
      (State.ReadsRow (AsItem root P Declarator.item) b) := by
  induction turns generalizing s found with
  | zero => exact .pure hfound
  | succ turns ih =>
    refine (tolerant_ensures mend_declarator .varBinding
      (binding_ensures hg)).bind fun d t hst hd => ?_
    have hfound : State.ReadsRow (AsItem root P Declarator.item) b
        (d :: found).reverse t := by
      rw [List.reverse_cons]
      exact hfound.concat hst hd
    refine (Ensures.lift (anotherBinding_ensures _)).bind
      fun _ u htu _ => ?_
    have hfound := hfound.later htu
    exact .ite (fun _ => ih hfound) (fun _ => .pure hfound)

omit hg in
/-- **A declaration in its place**: its bindings are its items. -/
theorem declaration_reads {d : VariableDeclaration} {b : Nat} {t : State}
    (hst : s.Leads root t) (hcut : IsCut root.source b)
    (hpast : b < t.consumedTo) (hspan : d.span = ⟨b, t.consumedTo⟩)
    (hrow : State.ReadsRow (AsItem root P Declarator.item) b
      d.declarators t) :
    State.Reads (As root P .declaration) b d t := by
  refine ⟨hpast, .intro hspan (hst.fits hcut hpast) ?_ ?_
    (fun _ h => (nomatch h)) nofun (fun h => (nomatch h)) trivial⟩
  · exact hrow.row.flatMap (fun _ _ _ _ h => h.2.2)
  · exact hrow.row.map (fun _ _ _ h => h)

/-- **A declaration.** Its bindings are handed over as well: a statement
gives it another span. -/
theorem variableDeclaration_ensures {kind : VarKind}
    (hkind : varKind? s.current.kind = some kind) :
    Ensures root (variableDeclaration g) ctx s (fun d t =>
      State.Reads (As root P .declaration) s.here d t
        ∧ State.ReadsRow (AsItem root P Declarator.item) s.here
          d.declarators t) := by
  refine .of_good (fun _ hs => ?_)
  refine (Ensures.lift (advance_ensures (isEof_of_varKind? hkind))).bind
    fun token t hst htook => ?_
  refine .look ctx rfl ?_
  refine (bindingsFrom_ensures hg _ (.nil (Nat.le_refl t.here))).bind
    fun declarators u htu hdeclarators => ?_
  refine .look (u.spanFrom token.span.start) rfl ?_
  have hpast := Nat.lt_of_lt_of_le htook.past htu.consumedTo_le
  have hrow := hdeclarators.sooner hst.here_le
  rw [htook.start_eq, State.spanFrom_eq hpast]
  exact .pure ⟨declaration_reads htu hs.isCut_here hpast rfl hrow, hrow⟩

theorem declarationStatement_ensures {kind : VarKind}
    (hkind : varKind? s.current.kind = some kind) :
    Ensures root (declarationStatement g) ctx s
      (State.Reads (As root P .statement) s.here) := by
  refine .look s.here rfl (.of_good fun _ hs => ?_)
  refine (variableDeclaration_ensures hg hkind).bind fun d t hst hd => ?_
  refine terminated fun u htu => ?_
  refine .look (u.spanFrom s.here) rfl ?_
  have hpast := Nat.lt_of_lt_of_le hd.1.1 htu.consumedTo_le
  rw [State.spanFrom_eq hpast]
  -- The terminator belongs to the declaration, which therefore is another
  -- one than the one that was read.
  have hread := declaration_reads (P := P) (d := { d with
    span := ⟨s.here, u.consumedTo⟩ }) htu hs.isCut_here hpast rfl
    (hd.2.later htu)
  exact .pure ⟨hpast, hread.2.wrap rfl rfl rfl trivial⟩

/-! ## Expressions as statements -/

theorem expressionStatement_ensures :
    Ensures root (expressionStatement g) ctx s
      (State.Reads (As root P .statement) s.here) := by
  refine .look s.here rfl (.of_good fun _ hs => ?_)
  refine (tolerant_ensures hg.mend_expression .expressionStatement
    (expression_ensures hg)).bind fun e t hst he => ?_
  refine (Ensures.lift (expressionEnd_ensures e)).bind
    fun _ u htu _ => ?_
  refine .look (u.spanFrom s.here) rfl ?_
  have hparts := (he.parts hst).later htu
  rw [State.spanFrom_eq hparts.past]
  exact .pure (htu.node hs.isCut_here hparts.past rfl rfl hparts trivial)

end ScriptTree.Parse
