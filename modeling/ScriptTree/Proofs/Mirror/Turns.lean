import ScriptTree.Proofs.Mirror.Recovery

/-!
# Loops in both texts

The other text has its own number of turns for a loop. What the loop comes
to does not depend on it (`Loop.Proceeds`), so it is enough to follow one
turn: the turns of the first parse are turns of the second.
-/

namespace ScriptTree

variable {M : Mirror} {E : State → Prop} {H B : Prop} {ctx : Context}
  {s s' t t' : State} {S : State → State → Prop} {α σ : Type}

/-! ## Turns -/

section Instances

variable [Movable α] [Movable σ] [HasNodes α] [HasNodes σ]

/-- What comes of a turn, at another place. -/
def Turn.move (f : Nat → Nat) : Turn σ α → Turn σ α
  | again x => again (Movable.move f x)
  | done a => done (Movable.move f a)

/-- The nodes of what comes of a turn. -/
def Turn.nodes : Turn σ α → List Node
  | again x => HasNodes.nodes x
  | done a => HasNodes.nodes a

instance : Movable (Turn σ α) := ⟨Turn.move⟩

instance : HasNodes (Turn σ α) := ⟨Turn.nodes⟩

end Instances

namespace Mirror

variable [HasNodes α]

/-- Nothing has no mark. -/
@[simp] theorem marked_nil : ¬M.Marked ([] : List α) := by
  rintro ⟨n, hn, _⟩
  exact absurd hn List.not_mem_nil

/-- A list is marked where one of its elements is. -/
@[simp] theorem marked_cons {x : α} {xs : List α} :
    M.Marked (x :: xs) ↔ M.Marked x ∨ M.Marked xs := by
  simp [Marked, HasNodes.nodes, or_and_right, exists_or]

/-- It does not matter in which order they are. -/
@[simp] theorem marked_reverse {xs : List α} :
    M.Marked xs.reverse ↔ M.Marked xs := by
  simp [Marked, HasNodes.nodes]

@[simp] theorem marked_none : ¬M.Marked (none : Option α) := by
  rintro ⟨n, hn, _⟩
  exact absurd hn List.not_mem_nil

/-- What may be missing is marked if it is there and marked. -/
@[simp] theorem marked_some {x : α} : M.Marked (some x) ↔ M.Marked x := by
  simp [Marked, HasNodes.nodes]

variable [HasNodes σ]

@[simp] theorem marked_again {x : σ} :
    M.Marked (.again x : Turn σ α) ↔ M.Marked x := Iff.rfl

@[simp] theorem marked_done {a : α} :
    M.Marked (.done a : Turn σ α) ↔ M.Marked a := Iff.rfl

end Mirror

/-! ## Loops -/

namespace Loop

variable {l : Loop σ α} {x : σ} {r r' : Except ParseError α × State}

/-- A loop comes to one thing only. -/
theorem Comes.unique (h : l.Comes ctx x s r) (h' : l.Comes ctx x s r') :
    r = r' := by
  induction h with
  | again hturn _ ih =>
    cases h' with
    | again hturn' rest' =>
      rw [hturn] at hturn'
      cases hturn'
      exact ih rest'
    | done hturn' | failure hturn' => exact nomatch hturn.symm.trans hturn'
  | done hturn | failure hturn =>
    cases h' with
    | again hturn' | done hturn' | failure hturn' =>
      cases hturn.symm.trans hturn'
      try rfl

section Mirrors

variable [HasNodes α] [HasNodes σ] [Movable α] [Movable σ]
  [hE : M.Backward E]
  (hturn : ∀ x s s', Parse.Mirrors M E (M.Along s s') (M.Marked x) M.move
    (l.turn x) (l.turn (M.move x)) ctx s s' M.Along)

include hturn

omit hE in
/-- **A loop takes steps only**, as each of its turns does. -/
theorem Comes.leads (hctx : M.root.Within ctx) (hs : s.Good M.root)
    (h : l.Comes ctx x s r) : s.Leads M.root r.2 := by
  induction h with
  | @again x y s t r hrun rest ih =>
    obtain ⟨hst, _⟩ := (hturn x s s).runs.of_run hctx hs hrun
    exact hst.trans (ih hst.good)
  | @done x a s t hrun =>
    exact ((hturn x s s).runs.of_run hctx hs hrun).1
  | @failure x e s t hrun =>
    have hst := ((hturn x s s).runs hctx hs).1
    rwa [hrun] at hst

/-- What is marked before a turn is marked behind the loop. -/
theorem Comes.marks (hctx : M.root.Within ctx) (hs : s.Good M.root) {a : α}
    (hx : M.Marked x) (h : l.Comes ctx x s (.ok a, t)) (ht : E t) :
    M.Marked a := by
  generalize hr : (Except.ok a, t) = r at h
  induction h with
  | @again x y s u r hrun rest ih =>
    subst hr
    obtain ⟨hsu, _⟩ := (hturn x s s).runs.of_run hctx hs hrun
    have hu := hE.back (rest.leads hturn hctx hsu.good) ht
    exact ih hsu.good ((hturn x s s).marks hx hctx hs hrun hu) rfl
  | @done x b s u hrun =>
    cases hr
    exact (hturn x s s).marks hx hctx hs hrun ht
  | failure => exact nomatch hr

/-- **What a loop comes to in one text** it comes to in the other. -/
theorem Comes.same (hctx : M.root.Within ctx) (hs : s.Good M.root) {a : α}
    (h : l.Comes ctx x s (.ok a, t)) (ht : E t) (hunmarked : ¬M.Marked a)
    (hstate : M.Along s s') :
    ∃ t', l.Comes (M.reflect ctx) (M.move x) s' (.ok (M.move a), t')
      ∧ M.Along t t' := by
  generalize hr : (Except.ok a, t) = r at h
  induction h generalizing s' with
  | @again x y s u r hrun rest ih =>
    subst hr
    obtain ⟨hsu, _⟩ := (hturn x s s').runs.of_run hctx hs hrun
    have hu := hE.back (rest.leads hturn hctx hsu.good) ht
    -- What is marked would stay so to the end.
    have hy : ¬M.Marked y := fun hy =>
      hunmarked (rest.marks hturn hctx hsu.good hy ht)
    obtain ⟨u', hrun', hstate'⟩ :=
      (hturn x s s').same hstate hctx hs hrun hu hy
    obtain ⟨t', hcomes, hend⟩ := ih hsu.good hstate' rfl
    exact ⟨t', .again hrun' hcomes, hend⟩
  | @done x b s u hrun =>
    cases hr
    obtain ⟨t', hrun', hend⟩ :=
      (hturn x s s').same hstate hctx hs hrun ht hunmarked
    exact ⟨t', .done hrun', hend⟩
  | failure => exact nomatch hr

variable (ctx) in
/-- **A loop does the same in both texts** if each of its turns does. -/
theorem run_mirrors (hl : l.Proceeds M.root) (hl' : l.Proceeds M.image)
    (x : σ) (s s' : State) :
    Parse.Mirrors M E (M.Along s s') (M.Marked x) M.move
      (l.run ctx.turns x)
      (l.run (M.reflect ctx).turns (M.move x)) ctx s s' M.Along where
  runs hctx hs :=
    ⟨(hl.comes hctx hs x).leads hturn hctx hs, fun _ _ => trivial⟩
  marks hx hctx hs a t hrun ht := by
    have hcomes := hl.comes hctx hs x
    rw [hrun] at hcomes
    exact hcomes.marks hturn hctx hs hx ht
  same hstate hctx hs a t hrun ht hunmarked := by
    have hcomes := hl.comes hctx hs x
    rw [hrun] at hcomes
    obtain ⟨t', hcomes', hend⟩ :=
      hcomes.same hturn hctx hs ht hunmarked hstate
    have hgood' : s'.Good M.image :=
      hstate.at_.elim (·.good') (·.good')
    exact ⟨t', (hl'.comes (M.within_image hctx) hgood' _).unique hcomes',
      hend⟩

end Mirrors

end Loop

/-! ## Lists with separators -/

namespace Parse

open ScriptTree.Action Mirror

section Items

variable [M.Lawful] [Mendable α] [Movable α] [HasNodes α]
  (hisError : ∀ x : α, Mendable.isError (M.move x) = Mendable.isError x)
  {item : Parse α}
  (habreast : Abreast (toleranceFamily M.options) True fun _ => item)
  (hitem : ∀ s s', Mirrors M M.Fits (M.Along s s') False M.move item item
    ctx s s' M.Along)

include hisError habreast hitem

/-- One turn of a list between brackets, behind which the closing one is
read. -/
theorem separatedTurn_mirrors (point : TolerantPoint) (closer : Punctuator)
    (found : List α) (s s' : State) :
    Mirrors M M.More (M.Along s s') (M.Marked found) M.move
      (separatedTurn point closer item found)
      (separatedTurn point closer item (M.move found)) ctx s s'
      M.Along := by
  refine .of_back (.look (s.current.isPunctuator closer)
    (s'.current.isPunctuator closer) rfl rfl ?_)
  refine .ite (fun h => ?_) (fun _ => ?_) (fun _ => ?_)
  · rw [(h.1.inside h.2).asks (Token.asks_punctuator closer)]
  · exact .pure And.left marked_reverse.2
      (congrArg Turn.done List.map_reverse.symm)
  refine (tolerant_mirrors point habreast (fun h => h.1.start)
    ((hitem s s').more.mono And.left id (fun _ => id)
      (fun _ _ => id))).bind (fun x t t' => ?_)
  have hx : M.Marked found ∨ M.Marked x →
      M.Marked (.again (x :: found) : Turn (List α) (List α)) :=
    fun h => marked_cons.2 h.symm
  refine (eat_mirrors (by decide) And.right).seq
    (fun eaten u u' => ?_)
  refine .ite (fun _ => Iff.rfl) (fun _ => .pure And.right hx rfl)
    (fun _ => ?_)
  refine .of_back (.look (u.current.isPunctuator closer)
    (u'.current.isPunctuator closer) rfl rfl ?_)
  refine .ite (fun h => ?_) (fun _ => .pure (fun h => h.1.2) hx rfl)
    (fun _ => ?_)
  · rw [(h.1.2.inside h.2).asks (Token.asks_punctuator closer)]
  refine .ite (fun _ => by rw [hisError]) (fun _ => ?_) (fun _ => ?_)
  · exact (eat_mirrors (by decide) (fun h => h.1.2)).discard.seq
      (fun _ _ _ => .pure And.right hx rfl)
  refine (missingSeparator_mirrors (μ := M.move) (S := M.Along) point _
    (fun h => h.1.2.start)).bind (fun skipped v v' => ?_)
  refine (eat_mirrors (by decide) And.right).discard.seq
    (fun _ _ _ => .pure And.right ?_ rfl)
  exact fun h => marked_cons.2 (h.symm.imp_right hx)

/-- **Items with commas between them** are the same in both texts, if the
closing bracket is read too. -/
theorem separated_mirrors (point : TolerantPoint) (closer : Punctuator)
    (hl : (separatedLoop point closer item).Proceeds M.root)
    (hl' : (separatedLoop point closer item).Proceeds M.image)
    (h : H → M.Along s s') :
    Mirrors M M.More H False M.move (separated point closer item)
      (separated point closer item) ctx s s' M.Along :=
  .look ctx (M.reflect ctx) rfl rfl ((Loop.run_mirrors ctx
    (separatedTurn_mirrors hisError habreast hitem point closer) hl hl' []
    s s').mono h False.elim (fun _ => id) (fun _ _ => id))

end Items

end Parse

end ScriptTree
