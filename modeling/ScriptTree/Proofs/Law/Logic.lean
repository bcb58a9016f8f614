import ScriptTree.Proofs.Account.Statement

/-!
# What productions bring to the end of a run

What holds of an answer may have to do with what the rest of the run comes
across. A production *brings* something to a last state if it accounts for
its run (`Parse.Accounts`), and its answer is as claimed provided that acts
lead on from where it has ended to the last state.

In a sequence the first answer is as claimed because the second production
is one of acts, too. So what is known of it is a premise of what is claimed
of the second answer (`Parse.Brings.bind`).
-/

namespace ScriptTree

open State

variable {α β : Type} {root ctx : Context} {s last : State}
  {R : α → Prop} {R' : β → Prop}

/-! ## Actions -/

/-- **What an action brings** to a last state. -/
def Action.Brings (root : Context) (last : State) (x : Action α)
    (ctx : Context) (s : State) (R : α → Prop) : Prop :=
  Accounts root x ctx s (fun a t => Acts root t last → R a)

namespace Action.Brings

variable {x : Action α} {f : α → Action β}

theorem pure {a : α} (h : R a) :
    Brings root last (pure a : Action α) ctx s R :=
  Accounts.pure fun _ => h

/-- **One action after another.** -/
theorem bind (hx : Brings root last x ctx s R)
    (hf : ∀ a t, Acts root s t →
      Brings root last (f a) ctx t (fun b => R a → R' b)) :
    Brings root last (x >>= f) ctx s R' :=
  Accounts.bind hx fun a t hst ha => Accounts.mono (hf a t hst)
    fun _ _ htu hb hlast => hb hlast (ha (htu.trans hlast))

/-- **What is answered on the way** may be anything. -/
theorem skip {Q : α → State → Prop} (hx : Accounts root x ctx s Q)
    (hf : ∀ a t, Acts root s t → Q a t →
      Brings root last (f a) ctx t R') :
    Brings root last (x >>= f) ctx s R' :=
  Accounts.bind hx hf

/-- Looking at the state changes nothing. -/
theorem look (a : α) (hx : x ctx s = (a, s))
    (hf : Brings root last (f a) ctx s R') :
    Brings root last (x >>= f) ctx s R' :=
  Accounts.look a hx hf

theorem mono {R₁ : α → Prop} (hx : Brings root last x ctx s R)
    (h : ∀ a, R a → R₁ a) : Brings root last x ctx s R₁ :=
  Accounts.mono hx fun a _ _ ha hlast => h a (ha hlast)

theorem ite {c : Prop} [Decidable c] {y : Action α}
    (hx : c → Brings root last x ctx s R)
    (hy : ¬c → Brings root last y ctx s R) :
    Brings root last (if c then x else y) ctx s R :=
  Accounts.ite hx hy

end Action.Brings

/-! ## Productions -/

namespace Parse

/-- **What a production brings** to a last state. -/
def Brings (root : Context) (last : State) (p : Parse α)
    (ctx : Context) (s : State) (R : α → Prop) : Prop :=
  Accounts root p ctx s (fun a t => Acts root t last → R a)

namespace Brings

variable {p : Parse α} {f : α → Parse β}

theorem pure {a : α} (h : R a) :
    Brings root last (pure a : Parse α) ctx s R :=
  Accounts.pure fun _ => h

/-- **One production after another.** -/
theorem bind (hp : Brings root last p ctx s R)
    (hf : ∀ a t, Acts root s t →
      Brings root last (f a) ctx t (fun b => R a → R' b)) :
    Brings root last (p >>= f) ctx s R' :=
  Accounts.bind hp fun a t hst ha => Accounts.mono (hf a t hst)
    fun _ _ htu hb hlast => hb hlast (ha (htu.trans hlast))

/-- The second production may use what the first ensures. -/
theorem bind_ensures {Q : α → State → Prop}
    (hp : Brings root last p ctx s R) (h : Ensures root p ctx s Q)
    (hf : ∀ a t, Acts root s t → Q a t →
      Brings root last (f a) ctx t (fun b => R a → R' b)) :
    Brings root last (p >>= f) ctx s R' :=
  Accounts.bind (Accounts.and_ensures hp h) fun a t hst ha =>
    Accounts.mono (hf a t hst ha.2)
      fun _ _ htu hb hlast => hb hlast (ha.1 (htu.trans hlast))

/-- **What is answered on the way** may be anything. -/
theorem skip {Q : α → State → Prop} (hp : Accounts root p ctx s Q)
    (hf : ∀ a t, Acts root s t → Q a t →
      Brings root last (f a) ctx t R') :
    Brings root last (p >>= f) ctx s R' :=
  Accounts.bind hp hf

/-- Looking at the state changes nothing. -/
theorem look (a : α) (hp : p ctx s = (.ok a, s))
    (hf : Brings root last (f a) ctx s R') :
    Brings root last (p >>= f) ctx s R' :=
  Accounts.look a hp hf

theorem mono {R₁ : α → Prop} (hp : Brings root last p ctx s R)
    (h : ∀ a, R a → R₁ a) : Brings root last p ctx s R₁ :=
  Accounts.mono hp fun a _ _ ha hlast => h a (ha hlast)

/-- What is known of the context, the state and the end of the run may be
used. -/
theorem since (hp : root.Within ctx → s.Reached root →
      Brings root last p ctx s (fun a => Acts root s last → R a)) :
    Brings root last p ctx s R :=
  Accounts.of_reached fun hctx hs => Accounts.mono (hp hctx hs)
    fun _ _ hst ha hlast => ha hlast (hst.trans hlast)

theorem ite {c : Prop} [Decidable c] {q : Parse α}
    (hp : c → Brings root last p ctx s R)
    (hq : ¬c → Brings root last q ctx s R) :
    Brings root last (if c then p else q) ctx s R :=
  Accounts.ite hp hq

theorem map {f : α → β} (hp : Brings root last p ctx s (fun a => R' (f a))) :
    Brings root last (f <$> p) ctx s R' :=
  Accounts.map hp

/-- An action is a production that never fails. -/
theorem lift {x : Action α} (hx : Action.Brings root last x ctx s R) :
    Brings root last (liftM x : Parse α) ctx s R :=
  Accounts.lift hx

/-- **A production as an action.** -/
theorem attempt (hp : Brings root last p ctx s R) :
    Action.Accounts root (Action.attempt p) ctx s (fun r t =>
      (∀ a, r = .ok a → Acts root t last → R a)
        ∧ ∀ e, r = .error e → e.Founded root t) :=
  Accounts.attempt hp

/-- A production in another context of the same run. -/
theorem withReader {k : Context → Context}
    (hk : root.Within ctx → root.Within (k ctx))
    (hp : Brings root last p (k ctx) s R) :
    Brings root last (withReader k p : Parse α) ctx s R :=
  Accounts.withReader hk hp

/-- **A production that counts as a level.** -/
theorem guarded (hp : Brings root last p ctx s.enter R) :
    Brings root last (guarded p) ctx s R :=
  Accounts.guarded hp fun _ _ ha hlast =>
    ha ((Relation.ReflTransGen.single (.level _)).trans hlast)

/-- A production between brackets. -/
theorem inBrackets (hp : Brings root last p ctx.inBrackets s.enter R) :
    Brings root last (inBrackets p) ctx s R :=
  guarded (withReader Context.Within.inBrackets hp)

end Brings

open ScriptTree.Action

/-! ## Going on after an error -/

section Mended

variable [Mendable α] (hmend : ∀ node, R (Mendable.ofError node))

include hmend

/-- **At a tolerant point** the answer may be mended. -/
theorem tolerant_brings (point : TolerantPoint) {p : Parse α}
    (hp : Brings root last p ctx s R) :
    Brings root last (tolerant point p) ctx s R := by
  intro hctx hs
  obtain ⟨hst, hR, hfounded⟩ := hp hctx hs
  rw [tolerant_run]
  generalize p ctx s = r at hst hR hfounded
  obtain ⟨error | a, t⟩ := r
  · have hmended : Brings root last
        (Mendable.ofError <$> mend point s.here error : Parse α) ctx t R :=
      .map (Accounts.mono (mend_accounts point _ fun _ =>
        hfounded error rfl) fun node _ _ _ _ => hmend node)
    obtain ⟨htu, hR, hfounded⟩ := hmended hctx (hs.acts hst)
    exact ⟨hst.trans htu, hR, hfounded⟩
  · exact ⟨hst, hR, hfounded⟩

theorem missingSeparator_brings (point : TolerantPoint)
    (expected : String) :
    Brings root last (missingSeparator point expected : Parse α) ctx s R := by
  refine .look s.current rfl ?_
  exact .skip (mend_accounts point _ fun hs =>
    ParseError.ofToken_founded hs List.mem_cons_self expected)
    fun node _ _ _ => .pure (hmend node)

variable {item : Parse α} (hitem : ∀ s, Brings root last item ctx s R)

include hitem

theorem separatedFrom_brings (point : TolerantPoint) (closer : Punctuator)
    (turns : Nat) (found : List α) :
    Brings root last (separatedFrom point closer item turns found) ctx s
      (fun xs => (∀ x ∈ found, R x) → ∀ x ∈ xs, R x) := by
  have hdone {found : List α} (h : ∀ x ∈ found, R x) :
      ∀ x ∈ found.reverse, R x :=
    fun x hx => h x (List.mem_reverse.1 hx)
  induction turns generalizing s found with
  | zero => exact .pure hdone
  | succ turns ih =>
    refine .look (s.current.isPunctuator closer) rfl
      (.ite (fun _ => .pure hdone) (fun _ => ?_))
    refine (tolerant_brings hmend point (hitem s)).bind fun x t _ => ?_
    have hnext {t : State} : Brings root last
        (separatedFrom point closer item turns (x :: found)) ctx t
        (fun xs => R x → (∀ y ∈ found, R y) → ∀ y ∈ xs, R y) :=
      (ih _).mono fun _ h hx hfound =>
        h (List.forall_mem_cons.2 ⟨hx, hfound⟩)
    refine .skip (.lift (eat_accounts .comma)) fun _ u _ _ => ?_
    refine .ite (fun _ => hnext) (fun _ => ?_)
    refine .look (u.current.isPunctuator closer) rfl
      (.ite (fun _ => hnext) (fun _ => .ite (fun _ => ?_) (fun _ => ?_)))
    · exact .skip (.lift (eat_accounts .comma).discard) fun _ _ _ _ => hnext
    · refine (missingSeparator_brings hmend point _).bind fun y v _ => ?_
      refine .skip (.lift (eat_accounts .comma).discard) fun _ w _ _ => ?_
      exact (ih _).mono fun _ h hy hx hfound =>
        h (List.forall_mem_cons.2 ⟨hy, List.forall_mem_cons.2 ⟨hx, hfound⟩⟩)

/-- **Items with commas between them.** -/
theorem separated_brings (point : TolerantPoint) (closer : Punctuator) :
    Brings root last (separated point closer item) ctx s
      (fun xs => ∀ x ∈ xs, R x) :=
  .look ctx rfl ((separatedFrom_brings hmend hitem point closer _ []).mono
    fun _ h => h (List.forall_mem_nil _))

end Mended

end Parse

end ScriptTree
