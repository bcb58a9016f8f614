import ScriptTree.Parse.Declaration
import ScriptTree.Proofs.Account.Expression
import ScriptTree.Proofs.Parse.Declaration

/-!
# Terminators and declarations and their tokens

A missing terminator blames the token that stands in its place, unless that
is at fault by itself. At the end of the text it blames nothing.
-/

namespace ScriptTree.Parse

open ScriptTree.Action State

variable {root ctx : Context} {s : State} {g : Grammar}

/-! ## The end of a statement -/

/-- **A missing terminator** is taken down for a reason. -/
theorem missingTerminator_warrants (hs : s.Sound root) {error : ParseError}
    (herror : error = .ofToken "';' or line break" s.current)
    (hlexical : error.isLexical = false) :
    s.Warrants root .structural (missingTerminatorMessage s.current error)
      error.span := by
  have hwarrants : s.Warrants root .structural error.message error.span := by
    subst herror
    exact (ParseError.ofToken_founded hs List.mem_cons_self _).warrants
      hlexical (by decide)
  have hmessage :
      ¬IsMismatch "missing ';' or line break before end of input" :=
    fun hm => absurd hm.head (by decide)
  refine ⟨hwarrants.ne_lexical, hwarrants.framed, ?_⟩
  unfold missingTerminatorMessage
  split
  · exact fun hm => absurd hm hmessage
  · exact hwarrants.of_mismatch

theorem reportMissingTerminator_accounts (atEnd : Bool) :
    Action.Accounts root (reportMissingTerminator atEnd) ctx s
      (fun _ t => s.Gathers root [] t) := by
  refine .look s.current rfl (.ite (fun _ => .pure (.refl root s))
    (fun hlexical => ?_))
  exact (report_accounts _ (fun hs => missingTerminator_warrants hs.sound rfl
    (Bool.eq_false_iff.2 hlexical))).mono (fun _ _ _ h => h.1)

theorem terminator_accounts (mayTrail : Bool) :
    Action.Accounts root (terminator mayTrail) ctx s
      (fun _ t => s.Gathers root [] t) := by
  refine (eat_accounts .semicolon).bind fun _ t _ ht => ?_
  refine .ite (fun _ => .pure ht) (fun _ => ?_)
  refine .look t.newlineBefore rfl (.ite (fun _ => .pure ht) (fun _ => ?_))
  refine .look (t.atListEnd ctx) rfl (.look ctx rfl ?_)
  refine .ite (fun _ => .pure ht) (fun _ => ?_)
  exact (reportMissingTerminator_accounts _).mono
    (fun _ _ _ h => ht.trans h)

theorem declarationEnd_accounts :
    Action.Accounts root declarationEnd ctx s
      (fun _ t => s.Gathers root [] t) :=
  .look s.newlineBefore rfl (.ite (fun _ => .pure (.refl root s))
    (fun _ => (eat_accounts .semicolon).discard))

theorem expressionEnd_accounts (e : Expression) :
    Action.Accounts root (expressionEnd e) ctx s
      (fun _ t => s.Gathers root [] t) :=
  .ite (fun _ => (eat_accounts .semicolon).discard)
    (fun _ => .ite (fun _ => declarationEnd_accounts)
      (fun _ => terminator_accounts true))

/-! ## Declarations of variables -/

/-- A word that opens a declaration is not in the tree. -/
theorem isSilent_of_varKind? {token : Token} {kind : VarKind}
    (h : varKind? token.kind = some kind) : token.IsSilent := by
  unfold Token.IsSilent
  cases hk : token.kind with
  | punctuator | keyword => trivial
  | _ =>
    rw [hk] at h
    exact nomatch h

theorem anotherBinding_accounts (mended : Bool) :
    Action.Accounts root (anotherBinding mended) ctx s
      (fun _ t => s.Gathers root [] t) := by
  refine (eat_accounts .comma).bind fun _ t _ ht => ?_
  exact .ite (fun _ => .pure ht) (fun _ => .look t rfl (.pure ht))

variable (hg : g.Gathers root)

include hg

theorem initializer?_accounts :
    Accounts root (initializer? g) ctx s
      (fun e? t => s.Gathers root (e?.toList.map .expression) t) := by
  refine (Accounts.lift (eat_accounts .assign)).bind fun _ t _ ht => ?_
  refine .ite (fun _ => ?_) (fun _ => .pure ht)
  exact (assignment_accounts hg).bind
    fun e u _ he => .pure (ht.trans he)

/-- **One binding.** -/
theorem binding_accounts :
    Accounts root (binding g) ctx s
      (fun d t => s.Gathers root d.parts t) := by
  refine identifier_accounts.bind fun id t _ hid => ?_
  refine (initializer?_accounts hg).bind fun init? u _ hinit => ?_
  exact .look (u.spanFrom id.span.start) rfl (.pure (hid.trans hinit))

theorem bindingsFrom_accounts (turns : Nat) {r : State}
    {found : List Declarator}
    (hfound : r.Gathers root (found.reverse.flatMap Declarator.parts) s) :
    Accounts root (bindingsFrom g turns found) ctx s
      (fun ds t => r.Gathers root (ds.flatMap Declarator.parts) t) := by
  induction turns generalizing s found with
  | zero => exact .pure hfound
  | succ turns ih =>
    refine (tolerant_accounts .varBinding (binding_accounts hg)).bind
      fun d t _ hd => ?_
    refine (Accounts.lift (anotherBinding_accounts _)).bind
      fun _ u _ hu => ?_
    have hfound := (hfound.concat hd).later hu
    exact .ite (fun _ => ih hfound) (fun _ => .pure hfound)

/-- **A declaration.** A statement gives it another span, which does not
change its leaves. -/
theorem variableDeclaration_accounts (hsilent : s.current.IsSilent) :
    Accounts root (variableDeclaration g) ctx s
      (fun d t => ∀ span,
        s.Gathers root [.declaration { d with span := span }] t) := by
  refine (Accounts.lift (skip_accounts hsilent)).bind
    fun token t _ ht => ?_
  refine .look ctx rfl ?_
  refine (bindingsFrom_accounts hg _ (.refl root t)).bind
    fun declarators u _ hdeclarators => ?_
  refine .look (u.spanFrom token.span.start) rfl (.pure (fun span => ?_))
  exact .wrap (ht.2.trans hdeclarators) rfl

theorem declarationStatement_accounts (hsilent : s.current.IsSilent) :
    Accounts root (declarationStatement g) ctx s
      (fun x t => s.Gathers root [.statement x] t) := by
  refine .look s.here rfl ?_
  refine (variableDeclaration_accounts hg hsilent).bind fun d t _ hd => ?_
  refine (Accounts.lift (terminator_accounts false)).bind
    fun _ u _ hu => ?_
  refine .look (u.spanFrom s.here) rfl (.pure (.wrap ?_ rfl))
  exact (hd _).later hu

/-! ## Expressions as statements -/

theorem expressionStatement_accounts :
    Accounts root (expressionStatement g) ctx s
      (fun x t => s.Gathers root [.statement x] t) := by
  refine .look s.here rfl ?_
  refine (tolerant_accounts .expressionStatement
    (expression_accounts hg)).bind fun e t _ he => ?_
  refine (Accounts.lift (expressionEnd_accounts e)).bind
    fun _ u _ hu => ?_
  exact .look (u.spanFrom s.here) rfl (.pure (.wrap (he.later hu) rfl))

end ScriptTree.Parse
