import ScriptTree.Proofs.Account.Act
import ScriptTree.Proofs.Account.Leaf
import ScriptTree.Proofs.Parse.Logic

/-!
# What productions account for

A production *accounts* for a run if it takes acts only, and if it fails
for a cause that can be taken down: the cause lies in the text, and a token
that is blamed is one the parse knows (`ParseError.Founded`). Of its
answer, should it answer, it says what is claimed.

What most productions claim is that the tokens that were read are spent on
the leaves of what was made of them (`State.Gathers`). It is a claim about
runs in which nothing goes wrong. Where something does, an error node holds
text of which there is no account.

The rules are those of `Parse.Ensures`, with the cause of a failure handed
on by each of them.
-/

namespace ScriptTree

variable {root ctx : Context} {s t u : State} {α β : Type}

/-! ## Causes -/

/-- **A cause that can be taken down.** -/
structure ParseError.Founded (root : Context) (e : ParseError)
    (s : State) : Prop where
  /-- It lies in the text. -/
  framed : e.span.Framed root.source
  /-- A token that is blamed is known, and the cause is in the token itself
  just if something is wrong with it. -/
  of_mismatch : IsMismatch e.message →
    ∃ x ∈ s.known, x.span = e.span ∧ e.isLexical = x.error.isSome

namespace ParseError

variable {e : ParseError}

theorem Founded.mono (h : e.Founded root s) (hknown : s.known ⊆ t.known) :
    e.Founded root t := by
  refine ⟨h.framed, fun hm => ?_⟩
  obtain ⟨x, hx, heq⟩ := h.of_mismatch hm
  exact ⟨x, hknown hx, heq⟩

/-- A cause that is no mismatch blames no token. -/
theorem Founded.of_not_isMismatch (hframed : e.span.Framed root.source)
    (h : ¬IsMismatch e.message) : e.Founded root s :=
  ⟨hframed, fun hm => absurd hm h⟩

/-- Only a token is at fault by itself. -/
theorem isMismatch_of_isLexical (h : e.isLexical = true) :
    IsMismatch e.message := by
  cases e with
  | unexpectedToken expected found span isLexical =>
    exact ⟨expected, found, rfl⟩
  | _ => exact nomatch h

/-- **A token that is known may be blamed.** -/
theorem ofToken_founded (hs : s.Sound root) {x : Token} (hx : x ∈ s.known)
    (expected : String) : (ofToken expected x).Founded root s := by
  unfold ofToken
  split
  · rename_i heof
    refine ⟨hs.framed x hx, fun _ => ⟨x, hx, rfl, ?_⟩⟩
    have hkind : x.kind = .eof := of_decide_eq_true heof
    rw [(hs.regular x hx).error_eq (by rw [hkind]; rfl)]
    rfl
  · exact ⟨hs.framed x hx, fun _ => ⟨x, hx, rfl, rfl⟩⟩

/-- A cause that lies in a token itself is one of which the parse knows
already. -/
theorem Founded.not_clean (h : e.Founded root s) (hs : s.Sound root)
    (hlexical : e.isLexical = true) : ¬s.Clean root := by
  intro hclean
  obtain ⟨x, hx, _, heq⟩ :=
    h.of_mismatch (isMismatch_of_isLexical hlexical)
  rw [hs.clear hclean x hx, hlexical] at heq
  exact nomatch heq

/-- **A cause that lies in no token may be taken down.** -/
theorem Founded.warrants (h : e.Founded root s)
    (hlexical : e.isLexical = false) {kind : DiagnosticKind}
    (hkind : kind ≠ .lexical) : s.Warrants root kind e.message e.span := by
  refine ⟨hkind, h.framed, fun hm => ?_⟩
  obtain ⟨x, hx, hspan, heq⟩ := h.of_mismatch hm
  rw [hlexical] at heq
  exact ⟨x, hx, Option.not_isSome_iff_eq_none.1 (by simp [← heq]), hspan⟩

end ParseError

/-! ## Tokens and leaves -/

namespace State

theorem Act.taken_subset (h : Act root s t) : s.taken ⊆ t.taken := by
  cases h with
  | bump =>
    rw [show (s.bump root).taken = s.known from
      (List.cons.inj (bump_known root s)).2]
    exact List.subset_cons_self ..
  | rescan =>
    rw [show (s.rescanRegex root).taken = s.taken from
      (List.cons.inj (rescanRegex_known root s)).2]
    exact fun _ h => h
  | @report kind severity message span =>
    rw [(report_reported root kind severity message span s).eq]
    exact fun _ h => h
  | record | level => exact fun _ h => h

/-- **A token that was read stays known.** -/
theorem Acts.taken_subset (h : Acts root s t) : s.taken ⊆ t.taken := by
  induction h with
  | refl => exact fun _ h => h
  | tail _ hact ih => exact fun _ h => hact.taken_subset (ih h)

theorem mem_known_of_taken {x : Token} (h : x ∈ s.taken) : x ∈ s.known :=
  List.mem_cons_of_mem _ h

/-- **Trees gathered on the way** from one state to another: where nothing
has gone wrong, the tokens read are spent on their leaves. -/
structure Gathers (root : Context) (s : State) (ns : List Node)
    (t : State) : Prop where
  /-- The way is one of acts. -/
  acts : Acts root s t
  /-- The tokens read are spent. -/
  spent : t.Clean root → ∃ ts, t.taken = ts.reverse ++ s.taken
    ∧ Spent ts (ns.flatMap Node.leaves)

namespace Gathers

variable {ns ns' : List Node}

/-- Nothing is read, and nothing is made. -/
theorem of_taken_eq (h : Acts root s t) (htaken : t.taken = s.taken) :
    s.Gathers root [] t :=
  ⟨h, fun _ => ⟨[], htaken, .nil⟩⟩

theorem refl (root : Context) (s : State) : s.Gathers root [] s :=
  .of_taken_eq .refl rfl

/-- Where something has gone wrong there is nothing to account for. -/
theorem of_not_clean (h : Acts root s t) (hclean : ¬t.Clean root) :
    s.Gathers root ns t :=
  ⟨h, fun h => absurd h hclean⟩

/-- **What is gathered one behind the other.** -/
theorem trans (h : s.Gathers root ns t) (h' : t.Gathers root ns' u) :
    s.Gathers root (ns ++ ns') u := by
  refine ⟨h.acts.trans h'.acts, fun hclean => ?_⟩
  obtain ⟨ts', htaken', hspent'⟩ := h'.spent hclean
  obtain ⟨ts, htaken, hspent⟩ := h.spent (h'.acts.clean hclean)
  refine ⟨ts ++ ts', ?_, ?_⟩
  · rw [htaken', htaken, List.reverse_append, List.append_assoc]
  · rw [List.flatMap_append]
    exact hspent.append hspent'

/-- What is read behind need not be in the tree. -/
theorem later (h : s.Gathers root ns t) (h' : t.Gathers root [] u) :
    s.Gathers root ns u := by
  have hall := h.trans h'
  rwa [List.append_nil] at hall

section Rows

variable {mk : α → Node} {parts : α → List Node} {x : α} {found : List α}

/-- One more thing is gathered, behind those found before it. -/
theorem concat (hfound : s.Gathers root (found.reverse.flatMap parts) t)
    (hx : t.Gathers root (parts x) u) :
    s.Gathers root ((x :: found).reverse.flatMap parts) u := by
  rw [List.reverse_cons, List.flatMap_append, List.flatMap_singleton]
  exact hfound.trans hx

/-- One more node is. -/
theorem concat_node (hfound : s.Gathers root (found.reverse.map mk) t)
    (hx : t.Gathers root [mk x] u) :
    s.Gathers root ((x :: found).reverse.map mk) u := by
  rw [List.reverse_cons, List.map_append]
  exact hfound.trans hx

end Rows

/-- The same leaves may be those of other trees. -/
theorem of_leaves (h : s.Gathers root ns t)
    (hleaves : ns'.flatMap Node.leaves = ns.flatMap Node.leaves) :
    s.Gathers root ns' t := by
  refine ⟨h.acts, fun hclean => ?_⟩
  rw [hleaves]
  exact h.spent hclean

/-- **A node holds what was gathered for its children.** -/
theorem wrap {n : Node} (h : s.Gathers root n.children t)
    (hleaf : n.leaf? = none) : s.Gathers root [n] t := by
  refine h.of_leaves ?_
  rw [List.flatMap_singleton, Node.leaves_of_leaf?_eq_none hleaf]

/-- **What is gathered inside a level** is gathered outside of it. -/
theorem leave (h : s.enter.Gathers root ns t) :
    s.Gathers root ns t.leave := by
  refine ⟨?_, fun hclean => ?_⟩
  · have henter : Acts root s s.enter := .single (.level _)
    exact (henter.trans h.acts).tail (.level _)
  · exact h.spent ⟨hclean.going, hclean.room, hclean.quiet⟩

end Gathers

end State

/-! ## Actions -/

open State

namespace Action

/-- **What an action accounts for**, run in a context from a state. -/
def Accounts (root : Context) (action : Action α) (ctx : Context)
    (s : State) (Q : α → State → Prop) : Prop :=
  root.Within ctx → s.Reached root →
    Acts root s (action ctx s).2 ∧ Q (action ctx s).1 (action ctx s).2

namespace Accounts

variable {Q : α → State → Prop} {R : β → State → Prop}

theorem pure {a : α} (h : Q a s) :
    Accounts root (pure a : Action α) ctx s Q :=
  fun _ _ => ⟨.refl, h⟩

theorem bind {x : Action α} {f : α → Action β}
    (hx : Accounts root x ctx s Q)
    (hf : ∀ a t, Acts root s t → Q a t → Accounts root (f a) ctx t R) :
    Accounts root (x >>= f) ctx s R := by
  intro hctx hs
  obtain ⟨ht, hQ⟩ := hx hctx hs
  obtain ⟨hu, hR⟩ := hf _ _ ht hQ hctx (hs.acts ht)
  exact ⟨ht.trans hu, hR⟩

/-- **Looking at the state** changes nothing. -/
theorem look {x : Action α} {f : α → Action β} (a : α)
    (hx : x ctx s = (a, s)) (hf : Accounts root (f a) ctx s R) :
    Accounts root (x >>= f) ctx s R := by
  refine bind (Q := fun b t => b = a ∧ t = s) ?_ ?_
  · intro _ _
    rw [hx]
    exact ⟨.refl, rfl, rfl⟩
  · rintro _ _ _ ⟨rfl, rfl⟩
    exact hf

/-- What is known of the context and the state may be used. -/
theorem of_reached {x : Action α}
    (h : root.Within ctx → s.Reached root → Accounts root x ctx s Q) :
    Accounts root x ctx s Q :=
  fun hctx hs => h hctx hs hctx hs

theorem mono {x : Action α} {Q' : α → State → Prop}
    (hx : Accounts root x ctx s Q)
    (h : ∀ a t, Acts root s t → Q a t → Q' a t) :
    Accounts root x ctx s Q' := by
  intro hctx hs
  obtain ⟨ht, hQ⟩ := hx hctx hs
  exact ⟨ht, h _ _ ht hQ⟩

theorem ite {c : Prop} [Decidable c] {x y : Action α}
    (hx : c → Accounts root x ctx s Q)
    (hy : ¬c → Accounts root y ctx s Q) :
    Accounts root (if c then x else y) ctx s Q := by
  split
  · exact hx ‹c›
  · exact hy ‹¬c›

theorem discard {x : Action α} {Q : State → Prop}
    (hx : Accounts root x ctx s (fun _ t => Q t)) :
    Accounts root (Functor.discard x) ctx s (fun _ t => Q t) :=
  hx

end Accounts

end Action

/-! ## Productions -/

namespace Parse

/-- **What a production accounts for**, run in a context from a state. -/
def Accounts (root : Context) (p : Parse α) (ctx : Context) (s : State)
    (Q : α → State → Prop) : Prop :=
  root.Within ctx → s.Reached root →
    Acts root s (p ctx s).2
      ∧ (∀ a, (p ctx s).1 = .ok a → Q a (p ctx s).2)
      ∧ ∀ e, (p ctx s).1 = .error e → e.Founded root (p ctx s).2

namespace Accounts

variable {Q Q' : α → State → Prop} {R : β → State → Prop}

theorem pure {a : α} (h : Q a s) :
    Accounts root (pure a : Parse α) ctx s Q := by
  intro _ _
  refine ⟨.refl, fun b hb => ?_, fun _ hb => nomatch hb⟩
  cases hb
  exact h

theorem throw {e : ParseError} (h : s.Sound root → e.Founded root s) :
    Accounts root (throw e : Parse α) ctx s Q := by
  intro _ hs
  refine ⟨.refl, fun _ hb => (nomatch hb), fun e' he => ?_⟩
  cases he
  exact h hs.sound

theorem bind {x : Parse α} {f : α → Parse β}
    (hx : Accounts root x ctx s Q)
    (hf : ∀ a t, Acts root s t → Q a t → Accounts root (f a) ctx t R) :
    Accounts root (x >>= f) ctx s R := by
  intro hctx hs
  obtain ⟨ht, hQ, hfounded⟩ := hx hctx hs
  rw [bind_run]
  generalize x ctx s = r at ht hQ hfounded
  obtain ⟨e | a, t⟩ := r
  · refine ⟨ht, fun _ hb => (nomatch hb), fun e' he => ?_⟩
    cases he
    exact hfounded e rfl
  · obtain ⟨hu, hR⟩ := hf a t ht (hQ a rfl) hctx (hs.acts ht)
    exact ⟨ht.trans hu, hR⟩

/-- **Looking at the state** changes nothing. -/
theorem look {x : Parse α} {f : α → Parse β} (a : α)
    (hx : x ctx s = (.ok a, s)) (hf : Accounts root (f a) ctx s R) :
    Accounts root (x >>= f) ctx s R := by
  intro hctx hs
  rw [bind_run, hx]
  exact hf hctx hs

/-- What is known of the context and the state may be used. -/
theorem of_reached {x : Parse α}
    (h : root.Within ctx → s.Reached root → Accounts root x ctx s Q) :
    Accounts root x ctx s Q :=
  fun hctx hs => h hctx hs hctx hs

theorem mono {x : Parse α} (hx : Accounts root x ctx s Q)
    (h : ∀ a t, Acts root s t → Q a t → Q' a t) :
    Accounts root x ctx s Q' := by
  intro hctx hs
  obtain ⟨ht, hQ, hfounded⟩ := hx hctx hs
  exact ⟨ht, fun a ha => h a _ ht (hQ a ha), hfounded⟩

/-- What a production ensures may be used of its answer. -/
theorem and_ensures {x : Parse α} (hx : Accounts root x ctx s Q)
    (h : Ensures root x ctx s Q') :
    Accounts root x ctx s (fun a t => Q a t ∧ Q' a t) := by
  intro hctx hs
  obtain ⟨ht, hQ, hfounded⟩ := hx hctx hs
  exact ⟨ht, fun a ha => ⟨hQ a ha, (h hctx hs.good).2 a ha⟩, hfounded⟩

theorem ite {c : Prop} [Decidable c] {x y : Parse α}
    (hx : c → Accounts root x ctx s Q)
    (hy : ¬c → Accounts root y ctx s Q) :
    Accounts root (if c then x else y) ctx s Q := by
  split
  · exact hx ‹c›
  · exact hy ‹¬c›

theorem map {x : Parse α} {f : α → β}
    (hx : Accounts root x ctx s (fun a t => R (f a) t)) :
    Accounts root (f <$> x) ctx s R := by
  rw [map_eq_pure_bind]
  exact hx.bind (fun a t _ h => .pure h)

theorem discard {x : Parse α} {Q : State → Prop}
    (hx : Accounts root x ctx s (fun _ t => Q t)) :
    Accounts root (Functor.discard x) ctx s (fun _ t => Q t) :=
  map hx

/-- **A production as an action**: a failure is an answer, with a cause
that can be taken down. -/
theorem attempt {x : Parse α} (hx : Accounts root x ctx s Q) :
    Action.Accounts root (Action.attempt x) ctx s (fun r t =>
      (∀ a, r = .ok a → Q a t) ∧ ∀ e, r = .error e → e.Founded root t) :=
  hx

/-- An action is a production that never fails. -/
theorem lift {x : Action α} (hx : Action.Accounts root x ctx s Q) :
    Accounts root (liftM x : Parse α) ctx s Q := by
  intro hctx hs
  obtain ⟨ht, hQ⟩ := hx hctx hs
  refine ⟨ht, fun a ha => ?_, fun _ he => nomatch he⟩
  cases ha
  exact hQ

/-- A production in another context of the same run. -/
theorem withReader {x : Parse α} {f : Context → Context}
    (hf : root.Within ctx → root.Within (f ctx))
    (hx : Accounts root x (f ctx) s Q) :
    Accounts root (withReader f x : Parse α) ctx s Q :=
  fun hctx hs => hx (hf hctx) hs

/-- **A production that counts as a level.** -/
theorem guarded {x : Parse α} (hx : Accounts root x ctx s.enter Q)
    (hleave : ∀ a t, Q a t → Q' a t.leave) :
    Accounts root (guarded x) ctx s Q' := by
  intro hctx hs
  have henter : Acts root s s.enter := .single (.level _)
  obtain ⟨ht, hQ, hfounded⟩ := hx hctx (hs.acts henter)
  rw [guarded_run]
  refine ⟨(henter.trans ht).tail (.level _),
    fun a ha => hleave a _ (hQ a ha), fun e he => ?_⟩
  exact ⟨(hfounded e he).framed, (hfounded e he).of_mismatch⟩

end Accounts

end Parse

end ScriptTree
