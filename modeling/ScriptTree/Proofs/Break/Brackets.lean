import ScriptTree.Proofs.Patch.Parse

/-!
# Line breaks in brackets

Where a parse reads something between brackets line breaks do not matter,
except in blocks: so a line break that it asks for there is asked for in a
block (`Derivation.freed_hasBlockAt`). A place in such brackets that is in
none of their blocks is in no gap that has been consulted, and if all spots
of some patches are such places the parse of the patched text replays the one
of the text (`Patches.Unseen.parse_eq_of_freed`).

So a line break that lies loose in an array or an expression in parentheses
may be a space (`parse_respaced`).
-/

namespace ScriptTree

open State

namespace Node

variable {n c : Node} {q : Nat}

/-- Whether a node is an array or an expression in parentheses. -/
def isGroup : Node → Bool
  | expression (.parenthesized ..) | expression (.array ..) => true
  | _ => false

/-- The whole of a group is read between brackets. -/
theorem freed_of_isGroup (h : n.isGroup = true) : n.freed = [n.span] := by
  cases n with
  | expression e => cases e <;> first | rfl | exact Bool.noConfusion h
  | _ => exact Bool.noConfusion h

/-- What is written in brackets of its own is a block or a group. -/
theorem freed_of_isBracketed (h : n.isBracketed = true) :
    n.freed = [] ∨ n.isBlock = false ∧ n.freed = [n.span] := by
  cases n with
  | block => exact .inl rfl
  | expression e =>
    cases e <;> first | exact .inr ⟨rfl, rfl⟩ | exact Bool.noConfusion h
  | _ => exact Bool.noConfusion h

/-- **A block at an offset** in a tree. -/
def HasBlockAt (n : Node) (q : Nat) : Prop :=
  ∃ m ∈ n.all, m.isBlock = true ∧ m.span.start ≤ q ∧ q < m.span.stop

theorem HasBlockAt.of_child (hc : c ∈ n.children) (h : c.HasBlockAt q) :
    n.HasBlockAt q := by
  obtain ⟨m, hm, hblock⟩ := h
  exact ⟨m, mem_all_iff.2 (.inr ⟨c, hc, hm⟩), hblock⟩

end Node

namespace Derivation

variable {root : Context} {e : ListEnd} {matters : Bool} {K : Set Mark}
  {s t : State} {ns : List Node}

/-- **The places where a line break was asked for** lie on the way. -/
theorem asked_within (h : Derivation root e matters K s ns t)
    (hs : s.Good root) :
    ∀ q, Mark.asked q ∈ K → s.consumedTo ≤ q ∧ q < t.here := by
  induction h with
  | rest | token | rescan => exact fun _ hq => hq.elim
  | look => exact fun q hq => asked_mem_question.1 hq
  | free _ ih =>
    exact fun q hq => ih hs q (hq.resolve_left Mark.noConfusion)
  | append before behind ih ih' =>
    have hmid := Acts.good before.acts hs
    have hcons := Acts.consumedTo_le before.acts hs
    have hhere := Acts.here_le behind.acts hmid
    rintro q (hq | hq)
    · have hle := ih hs q hq
      omega
    · have hle := ih' hmid q hq
      omega
  | node _ _ _ _ ih => exact ih hs
  | bracket _ _ opener parts closer _ ih =>
    have hopen := (Act.bump opener).good hs
    have hcons := Acts.consumedTo_le (.single (.bump opener)) hs
    have hhere := Acts.here_le (.single (.bump closer))
      (Acts.good parts.acts hopen)
    intro q hq
    have hle := ih hopen q hq
    omega

/-- **The stretches where line breaks did not matter** lie on the way,
too. -/
theorem free_within (h : Derivation root e matters K s ns t)
    (hs : s.Good root) :
    ∀ a b, Mark.free a b ∈ K → s.here ≤ a ∧ b ≤ t.consumedTo := by
  induction h with
  | rest | token | rescan => exact fun _ _ hmem => hmem.elim
  | look => exact fun a b hmem => absurd hmem free_not_mem_question
  | free _ ih =>
    rintro a b (heq | hmem)
    · obtain ⟨rfl, rfl⟩ := Mark.free.inj heq
      exact ⟨Nat.le_refl _, Nat.le_refl _⟩
    · exact ih hs a b hmem
  | append before behind ih ih' =>
    have hmid := Acts.good before.acts hs
    have hhere := Acts.here_le before.acts hs
    have hcons := Acts.consumedTo_le behind.acts hmid
    rintro a b (hmem | hmem)
    · have hle := ih hs a b hmem
      omega
    · have hle := ih' hmid a b hmem
      omega
  | node _ _ _ _ ih => exact ih hs
  | bracket _ _ opener parts closer _ ih =>
    have hopen := (Act.bump opener).good hs
    have hhere := Acts.here_le (.single (.bump opener)) hs
    have hcons := Acts.consumedTo_le (.single (.bump closer))
      (Acts.good parts.acts hopen)
    intro a b hmem
    have hle := ih hopen a b hmem
    omega

/-- **Where line breaks do not matter** they are asked for in blocks only. -/
theorem exists_hasBlockAt (h : Derivation root e false K s ns t)
    (hs : s.Good root) :
    ∀ q, Mark.asked q ∈ K → ∃ n ∈ ns, n.HasBlockAt q := by
  generalize hquiet : false = matters at h
  induction h with
  | rest | token | rescan => exact fun _ hq => hq.elim
  | look => exact Bool.noConfusion hquiet
  | free _ ih =>
    exact fun q hq => ih hs rfl q (hq.resolve_left Mark.noConfusion)
  | append before behind ih ih' =>
    rintro q (hq | hq)
    · obtain ⟨n, hn, hblock⟩ := ih hs hquiet q hq
      exact ⟨n, List.mem_append_left _ hn, hblock⟩
    · obtain ⟨n, hn, hblock⟩ :=
        ih' (Acts.good before.acts hs) hquiet q hq
      exact ⟨n, List.mem_append_right _ hn, hblock⟩
  | @node _ _ _ _ _ n _ _ _ _ ih =>
    intro q hq
    obtain ⟨c, hc, hblock⟩ := ih hs hquiet q hq
    exact ⟨n, List.mem_cons_self, hblock.of_child hc⟩
  | @bracket _ _ matters' _ s t n _ quiet opener parts closer span ih =>
    have hopen := (Act.bump opener).good hs
    intro q hq
    refine ⟨n, List.mem_cons_self, ?_⟩
    cases hmatters : matters' with
    | false =>
      obtain ⟨c, hc, hblock⟩ := ih hopen hmatters.symm q hq
      exact hblock.of_child hc
    | true =>
      -- It is the block itself.
      have hwithin := parts.asked_within hopen q hq
      have hlt := hs.here_lt_stop opener
      have hle := (Acts.good parts.acts hopen).here_lt_stop closer
      rw [bump_consumedTo] at hwithin
      refine ⟨n, n.mem_all_self, quiet hmatters, ?_⟩
      rw [span, spanFrom, bump_consumedTo]
      exact ⟨show s.here ≤ q by omega,
        Nat.lt_of_lt_of_le (by omega) (Nat.le_max_left _ _)⟩

/-- **In a stretch where line breaks did not matter** they were asked for in
blocks only. -/
theorem free_hasBlockAt (h : Derivation root e matters K s ns t)
    (hs : s.Good root) {a b q : Nat} (hfree : Mark.free a b ∈ K)
    (hasked : Mark.asked q ∈ K) (hle : a ≤ q) (hlt : q < b) :
    ∃ n ∈ ns, n.HasBlockAt q := by
  induction h with
  | rest | token | rescan => exact hfree.elim
  | look => exact absurd hfree free_not_mem_question
  | free inside =>
    exact inside.exists_hasBlockAt hs q
      (hasked.resolve_left Mark.noConfusion)
  | append before behind ih ih' =>
    have hmid := Acts.good before.acts hs
    rcases hfree with hfree | hfree <;> rcases hasked with hasked | hasked
    · obtain ⟨n, hn, hblock⟩ := ih hs hfree hasked
      exact ⟨n, List.mem_append_left _ hn, hblock⟩
    · -- The question is behind the stretch.
      have hstretch := before.free_within hs a b hfree
      have hquestion := behind.asked_within hmid q hasked
      omega
    · -- It is in front of it.
      have hstretch := behind.free_within hmid a b hfree
      have hquestion := before.asked_within hs q hasked
      omega
    · obtain ⟨n, hn, hblock⟩ := ih' hmid hfree hasked
      exact ⟨n, List.mem_append_right _ hn, hblock⟩
  | node _ _ _ _ ih =>
    obtain ⟨c, hc, hblock⟩ := ih hs hfree hasked
    exact ⟨_, List.mem_cons_self, hblock.of_child hc⟩
  | bracket _ _ opener _ _ _ ih =>
    obtain ⟨c, hc, hblock⟩ :=
      ih ((Act.bump opener).good hs) hfree hasked
    exact ⟨_, List.mem_cons_self, hblock.of_child hc⟩

/-- **What is read between brackets** lies on the way. -/
theorem freed_within (h : Derivation root e matters K s ns t)
    (hs : s.Good root) : ∀ n ∈ ns, ∀ m ∈ n.all, ∀ r ∈ m.freed,
      s.here ≤ r.start ∧ r.stop ≤ t.consumedTo := by
  induction h with
  | rest | look | token | rescan => exact List.forall_mem_nil _
  | free _ ih => exact ih hs
  | append before behind ih ih' =>
    have hmid := Acts.good before.acts hs
    have hcons := Acts.consumedTo_le behind.acts hmid
    have hhere := Acts.here_le before.acts hs
    intro n hn m hm r hr
    rcases List.mem_append.1 hn with hn | hn
    · have hle := ih hs n hn m hm r hr
      omega
    · have hle := ih' hmid n hn m hm r hr
      omega
  | node _ parts freed _ ih =>
    intro n hn m hm r hr
    obtain rfl := List.mem_singleton.1 hn
    rcases Node.mem_all_iff.1 hm with rfl | ⟨c, hc, hm⟩
    · obtain ⟨a, b, hmem, hle⟩ := freed r hr
      have hstretch := parts.free_within hs a b hmem
      omega
    · exact ih hs c hc m hm r hr
  | bracket isBracketed _ opener parts closer span ih =>
    have hopen := (Act.bump opener).good hs
    have hhere := Acts.here_le (.single (.bump opener)) hs
    have hcons := Acts.consumedTo_le (.single (.bump closer))
      (Acts.good parts.acts hopen)
    intro n hn m hm r hr
    obtain rfl := List.mem_singleton.1 hn
    rcases Node.mem_all_iff.1 hm with rfl | ⟨c, hc, hm⟩
    · rcases Node.freed_of_isBracketed isBracketed with hnil | ⟨-, hone⟩
      · exact absurd (hnil ▸ hr) List.not_mem_nil
      · obtain rfl := List.mem_singleton.1 (hone ▸ hr)
        have hlt := hs.here_lt_stop opener
        have hle := Acts.consumedTo_le parts.acts hopen
        rw [bump_consumedTo] at hle
        rw [span, spanFrom]
        exact ⟨Nat.le_refl _, Nat.max_le.2 ⟨Nat.le_refl _, by omega⟩⟩
    · have hle := ih hopen c hc m hm r hr
      omega

/-- **In what is read between brackets** line breaks are asked for in blocks
only. -/
theorem freed_hasBlockAt (h : Derivation root e matters K s ns t)
    (hs : s.Good root) {q : Nat} (hasked : Mark.asked q ∈ K) :
    ∀ n ∈ ns, ∀ m ∈ n.all, ∀ r ∈ m.freed, r.start < q → q < r.stop →
      m.HasBlockAt q := by
  induction h with
  | rest | look | token | rescan => exact List.forall_mem_nil _
  | free _ ih => exact ih hs (hasked.resolve_left Mark.noConfusion)
  | append before behind ih ih' =>
    have hmid := Acts.good before.acts hs
    intro n hn m hm r hr hstart hstop
    rcases List.mem_append.1 hn with hn | hn
    · rcases hasked with hasked | hasked
      · exact ih hs hasked n hn m hm r hr hstart hstop
      · -- The question is behind the brackets.
        have hquestion := behind.asked_within hmid q hasked
        have hle := before.freed_within hs n hn m hm r hr
        omega
    · rcases hasked with hasked | hasked
      · -- It is in front of them.
        have hquestion := before.asked_within hs q hasked
        have hle := behind.freed_within hmid n hn m hm r hr
        omega
      · exact ih' hmid hasked n hn m hm r hr hstart hstop
  | node _ parts freed _ ih =>
    intro n hn m hm r hr hstart hstop
    obtain rfl := List.mem_singleton.1 hn
    rcases Node.mem_all_iff.1 hm with rfl | ⟨c, hc, hm⟩
    · obtain ⟨a, b, hmem, hle, hle'⟩ := freed r hr
      obtain ⟨c, hc, hblock⟩ :=
        parts.free_hasBlockAt hs hmem hasked (by omega) (by omega)
      exact hblock.of_child hc
    · exact ih hs hasked c hc m hm r hr hstart hstop
  | @bracket _ _ matters' _ _ _ _ isBracketed quiet opener parts _ _ ih =>
    have hopen := (Act.bump opener).good hs
    intro n hn m hm r hr hstart hstop
    obtain rfl := List.mem_singleton.1 hn
    rcases Node.mem_all_iff.1 hm with rfl | ⟨c, hc, hm⟩
    · rcases Node.freed_of_isBracketed isBracketed with hnil | ⟨hnot, -⟩
      · exact absurd (hnil ▸ hr) List.not_mem_nil
      · obtain rfl : matters' = false := Bool.eq_false_iff.2 (fun hmatters =>
          Bool.noConfusion (hnot.symm.trans (quiet hmatters)))
        obtain ⟨c, hc, hblock⟩ := parts.exists_hasBlockAt hopen q hasked
        exact hblock.of_child hc
    · exact ih hopen hasked c hc m hm r hr hstart hstop

end Derivation

/-- **A place between brackets**, and in none of the blocks there. -/
def Program.IsFreeAt (p : Program) (q : Nat) : Prop :=
  ∃ n ∈ (Node.program p).all,
    (∃ r ∈ n.freed, r.start < q ∧ q < r.stop) ∧ ¬n.HasBlockAt q

instance (n : Node) (q : Nat) : Decidable (n.HasBlockAt q) :=
  inferInstanceAs (Decidable (∃ m ∈ _, _))

instance (p : Program) (q : Nat) : Decidable (p.IsFreeAt q) :=
  inferInstanceAs (Decidable (∃ n ∈ _, (∃ r ∈ _, _) ∧ _))

/-- **The parse of a patched text** does the same, if all spots are between
brackets and in none of the blocks there. -/
theorem Patches.Unseen.parse_eq_of_free {X : Patches}
    {text other : List Char} (h : X.Unseen text other)
    (hspots : ∀ q ∈ X.spots, (parse text).program.IsFreeAt q) :
    (parse other).diagnostics = []
      ∧ (parse other).program.body = (parse text).program.body := by
  obtain ⟨K, hyields, hsame⟩ := h.parse_eq
  refine hsame (fun q hq hmem => ?_)
  obtain ⟨n, hn, ⟨r, hr, hstart, hstop⟩, hblock⟩ := hspots q hq
  obtain ⟨c, hc, hn⟩ := (Node.mem_all_iff.1 hn).resolve_left (by
    rintro rfl
    exact absurd hr List.not_mem_nil)
  exact hblock ((hyields.tree .refl).freed_hasBlockAt (initial_good _) hmem
    c hc n hn r hr hstart hstop)

/-! ## A line break and a space in its place -/

/-- **A place in a text that lies loose**: it is in none of the tokens that
are read and in none of the comments, and it does not end a comment that
goes on to the end of its line. -/
structure IsLoose (source : List Char) (spot : Nat) : Prop where
  /-- It is in none of the tokens. -/
  token : ∀ t ∈ readTokens source,
    ¬(t.span.start ≤ spot ∧ spot < t.span.stop)
  /-- It is in none of the comments. -/
  comment : ∀ c ∈ (parse source).program.comments,
    ¬(c.span.start ≤ spot ∧ spot < c.span.stop)
  /-- No comment that goes on to the end of its line ends there. -/
  line : ∀ c ∈ (parse source).program.comments, c.kind = .line →
    c.span.stop ≠ spot

/-- A chain goes on behind a line break if it goes on behind a space. -/
theorem Scanner.continuesChain_respaced (w back : List Char) :
    continuesChain (w ++ ' ' :: back)
      = continuesChain (w ++ '\n' :: back) := by
  induction w with
  | nil =>
    rw [List.nil_append, List.nil_append,
      continuesChain_cons_white (by decide),
      continuesChain_cons_white (by decide)]
  | cons d w ih =>
    rw [List.cons_append, List.cons_append]
    cases hd : isWhiteSpace d with
    | true =>
      rw [continuesChain_cons_white hd, continuesChain_cons_white hd, ih]
    | false =>
      -- What comes behind a dot is no digit in either of the texts, or the
      -- same.
      rw [Bool.eq_iff_iff, continuesChain_cons hd, continuesChain_cons hd]
      refine and_congr_right (fun _ => ?_)
      cases w with
      | nil =>
        refine iff_of_true (fun c hc => ?_) (fun c hc => ?_) <;>
        · obtain rfl := Option.some.inj hc
          rfl
      | cons c w => rfl

/-- **The patch that puts a space in the place of a line break.** -/
def Patches.respacing (front : List Char) : Patches where
  filling := .lineBreak
  spans := {⟨byteLength front, byteLength front + 1⟩}
  breaks := Set.univ
  spots := {byteLength front}

/-- A parse does not see it if the line break lies loose. -/
theorem IsLoose.unseen {front back : List Char}
    (hquiet : (parse (front ++ '\n' :: back)).diagnostics = [])
    (h : IsLoose (front ++ '\n' :: back) (byteLength front)) :
    (Patches.respacing front).Unseen (front ++ '\n' :: back)
      (front ++ ' ' :: back) where
  quiet := hquiet
  patched := by
    have hbreak : Patched (.respacing front) (byteLength front)
        (['\n'] ++ back) ([' '] ++ back) :=
      .patch (.lineBreak back back) (Set.mem_singleton _)
        (fun _ => Set.mem_singleton _) (.refl _ _ _)
    refine .append_left ?_
      (fun u v _ _ _ => Scanner.continuesChain_respaced v back)
    rw [Nat.zero_add]
    exact hbreak
  pos p hp := by
    obtain rfl := Set.mem_singleton_iff.1 hp
    exact Nat.lt_succ_self _
  token t ht p hp := by
    obtain rfl := Set.mem_singleton_iff.1 hp
    have hnot := h.token t ht
    dsimp only
    omega
  slash hf := Filling.noConfusion hf
  comment c hc p hp := by
    obtain rfl := Set.mem_singleton_iff.1 hp
    have hnot := h.comment c hc
    dsimp only
    omega
  line _ c hc hline p hp := by
    obtain rfl := Set.mem_singleton_iff.1 hp
    exact (h.line c hc hline).symm
  breaks q _ := Set.mem_univ q

/-- **Line breaks in brackets are insignificant.** Where a line break lies
loose in an array or in an expression in parentheses, and in none of the
blocks there, a space in its place makes no difference to the tree, nor is
there anything to complain about. -/
theorem parse_respaced {front back : List Char}
    (hquiet : (parse (front ++ '\n' :: back)).diagnostics = [])
    (hloose : IsLoose (front ++ '\n' :: back) (byteLength front))
    {n : Node}
    (hn : n ∈ (Node.program (parse (front ++ '\n' :: back)).program).all)
    (hgroup : n.isGroup = true) (hstart : n.span.start < byteLength front)
    (hstop : byteLength front < n.span.stop)
    (hblock : ¬n.HasBlockAt (byteLength front)) :
    (parse (front ++ ' ' :: back)).diagnostics = []
      ∧ (parse (front ++ ' ' :: back)).program.body
        = (parse (front ++ '\n' :: back)).program.body := by
  refine (hloose.unseen hquiet).parse_eq_of_free (fun q hq => ?_)
  obtain rfl := Set.mem_singleton_iff.1 hq
  refine ⟨n, hn, ⟨n.span, ?_, hstart, hstop⟩, hblock⟩
  rw [Node.freed_of_isGroup hgroup]
  exact List.mem_singleton_self _

/-- A line break between the items of an array, one of which is a function
with a line break in its block. -/
theorem parse_respaced_array :
    let front := "x = [a,".toList
    let back := "b => \x7b c\nd \x7d]".toList
    (parse (front ++ '\n' :: back)).diagnostics = []
      ∧ (parse (front ++ ' ' :: back)).diagnostics = []
      ∧ (parse (front ++ ' ' :: back)).program.body
        = (parse (front ++ '\n' :: back)).program.body := by
  intro front back
  have hquiet : (parse (front ++ '\n' :: back)).diagnostics = [] := by
    decide +kernel
  have hloose : IsLoose (front ++ '\n' :: back) (byteLength front) :=
    ⟨by decide +kernel, by decide +kernel, by decide +kernel⟩
  have hany : (Node.program (parse (front ++ '\n' :: back)).program).all.any
      (fun n => n.isGroup && decide (n.span.start < byteLength front)
        && decide (byteLength front < n.span.stop)
        && n.all.all (fun m => !m.isBlock
          || !decide (m.span.start ≤ byteLength front
            ∧ byteLength front < m.span.stop))) = true := by
    decide +kernel
  obtain ⟨n, hn, hgroup⟩ := List.any_eq_true.1 hany
  simp only [Bool.and_eq_true, decide_eq_true_eq, List.all_eq_true] at hgroup
  obtain ⟨⟨⟨hgroup, hstart⟩, hstop⟩, hall⟩ := hgroup
  refine ⟨hquiet, parse_respaced hquiet hloose hn hgroup hstart hstop ?_⟩
  rintro ⟨m, hm, hblock, hat⟩
  have hnot := hall m hm
  rw [hblock, decide_eq_true hat] at hnot
  exact nomatch hnot

end ScriptTree
