import Mathlib.Data.List.Pairwise
import ScriptTree.Proofs.Account.Stream
import ScriptTree.Proofs.Derive.Derivation
import ScriptTree.Proofs.Token.Walk

/-!
# The course of a run

Acts only lead forward, and they leave their tracks in what a parse keeps:
each token that comes to be known begins behind those known before
(`State.Acts.exists_known`), and each comment that is found begins behind
the place where the run began (`State.Acts.comments`). So what holds of a
place that has been passed holds in the end.

Of one kind of place more is known: where a parse has taken note of a line
break there is one, and it is in none of the comments
(`State.Reached.exists_lineBreak`).
-/

namespace ScriptTree

/-! ## Line breaks that are passed -/

/-- A span that holds some text tells where it is. -/
theorem Span.exists_of_slice {s : Span} {text m : List Char}
    (h : s.slice text = m) (hne : m ≠ []) :
    ∃ a b, text = a ++ (m ++ b) ∧ byteLength a = s.start := by
  unfold slice at h
  split at h
  · split at h
    · rename_i a rest ha
      obtain ⟨rfl, hstart⟩ := splitAtByte?_eq_some_iff.1 ha
      split at h
      · rename_i middle b hb
        obtain ⟨rfl, _⟩ := splitAtByte?_eq_some_iff.1 hb
        exact ⟨a, b, by rw [h], hstart⟩
      · exact absurd h.symm hne
    · exact absurd h.symm hne
  · exact absurd h.symm hne

namespace Scanner

/-- A line break is spelled as one. -/
theorem next_text_of_lineBreak {s : Scanner}
    (h : s.next.1.kind = .lineBreak) : s.next.1.text = "\n" := by
  unfold next read at h ⊢
  split at h
  · exact nomatch h
  · rename_i hrest
    show String.ofList (s.settle.rest.take 1) = _
    rw [hrest]
    rfl
  · exact absurd h (Lexeme.atFront_kind_ne ..).2

theorem nextSignificantFrom_text_of_lineBreak (s : Scanner)
    (found : List Token)
    (hfound : ∀ x ∈ found, x.kind = .lineBreak → x.text = "\n") :
    ∀ x ∈ (s.nextSignificantFrom found).extras,
      x.kind = .lineBreak → x.text = "\n" := by
  fun_induction nextSignificantFrom s found with
  | case1 s found step hextra ih =>
    exact ih (List.forall_mem_cons.2 ⟨next_text_of_lineBreak, hfound⟩)
  | case2 s found step hextra =>
    exact fun x hx => hfound x (List.mem_reverse.1 hx)

end Scanner

/-- Extras in a row are apart from one another. -/
theorem Row.apart {source : List Char} {lo hi : Nat} {xs : List Token}
    {x y : Token} (h : Row (Token.Occupies source) lo hi xs) (hx : x ∈ xs)
    (hy : y ∈ xs) (hne : x ≠ y) :
    x.span.stop ≤ y.span.start ∨ y.span.stop ≤ x.span.start := by
  have hpair : xs.Pairwise (fun x y =>
      x.span.stop ≤ y.span.start ∨ y.span.stop ≤ x.span.start) :=
    h.pairwise.imp fun {x y} ⟨_, _, _, _, hx, hy, hle⟩ => by
      rw [hx.1, hy.1]
      exact .inl hle
  have : Std.Symm fun x y : Token =>
      x.span.stop ≤ y.span.start ∨ y.span.stop ≤ x.span.start :=
    ⟨fun _ _ => Or.symm⟩
  exact hpair.forall hx hy hne

/-- **A line break between two offsets** of a text, in none of some
comments. -/
def HasBreak (source : List Char) (comments : List Comment)
    (lo hi : Nat) : Prop :=
  ∃ a b, source = a ++ '\n' :: b ∧ lo ≤ byteLength a ∧ byteLength a < hi
    ∧ ∀ c ∈ comments,
      byteLength a < c.span.start ∨ c.span.stop ≤ byteLength a

namespace State

variable {root : Context} {s t u : State}

/-- **A line break between the last token read and the current one**. -/
def ShowsBreak (root : Context) (s : State) : Prop :=
  HasBreak root.source s.comments.toList s.consumedTo s.here

/-- **A line break that is noted** when a token is read, is there. -/
theorem Stands.bump_showsBreak (hs : s.Stands root)
    (hcomments : ∀ c ∈ s.comments, c.span.stop ≤ s.current.span.stop)
    (hbreak : (s.bump root).newlineBefore = true) :
    (s.bump root).ShowsBreak root := by
  obtain ⟨u, _, heq⟩ := bump_eq root s
  obtain ⟨before, hat, hstop⟩ := hs.at_stop
  obtain ⟨front, text, h⟩ := s.scanner.nextSignificant_finds hat
  rw [heq] at hbreak
  obtain ⟨x, hx, hkind⟩ := List.any_eq_true.1 hbreak
  have hkind : x.kind = .lineBreak := of_decide_eq_true hkind
  obtain ⟨b, e, hb, hbe, he, hoccupies⟩ := h.row.exists_of_mem hx
  have htext : "\n" = String.ofList (x.span.slice s.scanner.source) := by
    rw [← hoccupies.2.2]
    exact (s.scanner.nextSignificantFrom_text_of_lineBreak []
      (List.forall_mem_nil _) x hx hkind).symm
  obtain ⟨a, c, hsource, hstart⟩ := Span.exists_of_slice
    (String.ofList_injective htext.symm : _ = ['\n']) (List.cons_ne_nil _ _)
  have hspan := hoccupies.1
  rw [hspan] at hstart
  refine ⟨a, c, hs.source_eq ▸ hsource, ?_, ?_, fun y hy => ?_⟩
  · rw [bump_consumedTo, hstop, hstart]
    exact hb
  · rw [hstart, here, bump_current, Scanner.peek, h.spells.span_eq]
    exact Nat.lt_of_lt_of_le hbe he
  · rw [Array.mem_toList_iff, heq] at hy
    rcases Array.mem_append.1 hy with hy | hy
    · -- A comment from before the token that is read.
      refine .inr (Nat.le_trans (hcomments y hy) ?_)
      rw [hstop, hstart]
      exact hb
    · -- A comment on the way, and so another extra than the line break.
      have hy := List.mem_toArray.1 hy
      unfold keptComments at hy
      split at hy
      · obtain ⟨z, hz, rfl⟩ := List.mem_map.1 hy
        obtain ⟨hz, hne⟩ := List.mem_filter.1 hz
        have happart := h.row.apart hz hx
          (fun heq => of_decide_eq_true hne (heq ▸ hkind))
        rw [hspan] at happart
        show byteLength a < z.span.start ∨ z.span.stop ≤ byteLength a
        rw [hstart]
        exact happart.symm.imp_left (Nat.lt_of_lt_of_le hbe)
      · exact absurd hy List.not_mem_nil

/-- The comments that have been found end before the current token does. -/
theorem Good.comments_le (hs : s.Good root) :
    ∀ c ∈ s.comments, c.span.stop ≤ s.current.span.stop := by
  intro c hc
  obtain ⟨b, e, _, _, he, hspan, _⟩ :=
    hs.comments.exists_of_mem (Array.mem_toList_iff.2 hc)
  rw [hspan]
  exact Nat.le_trans he hs.here_le_stop

/-- **Where a parse has taken note of a line break** there is one. -/
theorem Reached.exists_lineBreak (hs : s.Reached root)
    (hbreak : s.newlineBefore = true) : s.ShowsBreak root := by
  refine (hs.induction (P := fun s =>
    s.newlineBefore = true → s.ShowsBreak root) ?_ ?_).2 hbreak
  · exact (blank_stands root).bump_showsBreak (fun _ h => nomatch h)
  · intro s t hs hact ih
    cases hact with
    | bump isEof =>
      exact hs.stands.bump_showsBreak hs.comments_le
    | rescan slash =>
      obtain ⟨_, hhere, _⟩ := rescanRegex_good hs slash
      obtain ⟨u, hu, heq⟩ := rescanRegex_eq root s
      have hsame : (s.rescanRegex root).newlineBefore = s.newlineBefore
          ∧ (s.rescanRegex root).consumedTo = s.consumedTo
          ∧ (s.rescanRegex root).comments = s.comments := by
        rw [heq, hu.eq]
        exact ⟨rfl, rfl, rfl⟩
      unfold ShowsBreak at ih ⊢
      rw [hsame.1, hsame.2.1, hsame.2.2, hhere]
      exact ih
    | @report kind severity message span =>
      rw [(report_reported root kind severity message span s).eq]
      exact ih
    | record | level => exact ih

/-! ## Runs of acts -/

/-- **A run of acts is one of steps**, the levels aside. -/
theorem Acts.leads (h : Acts root s t) (hs : s.Good root) :
    s.Leads root (t.atDepth s.depth) := by
  induction h with
  | refl => exact .refl hs
  | tail _ hact ih =>
    cases hact with
    | level => exact ih
    | bump isEof => exact ih.trans (.step ih.good (Step.bump isEof).atDepth)
    | rescan slash =>
      exact ih.trans (.step ih.good (Step.rescan slash).atDepth)
    | report severity _ =>
      exact ih.trans (.step ih.good (Step.report _ severity _ _).atDepth)
    | record event =>
      exact ih.trans (.step ih.good (Step.record event).atDepth)

section Forward

variable (h : Acts root s t) (hs : s.Good root)

include h hs

theorem Acts.good : t.Good root := by
  have hgood := (h.leads hs).good.atDepth t.depth
  exact hgood

theorem Acts.here_le : s.here ≤ t.here := (h.leads hs).here_le

theorem Acts.consumedTo_le : s.consumedTo ≤ t.consumedTo :=
  (h.leads hs).consumedTo_le

theorem Acts.comments_prefix :
    s.comments.toList <+: t.comments.toList := by
  have hleads := h.leads hs
  exact hleads.comments_prefix

end Forward

/-- **What has come to be known since a state**: the token that was current,
unless it was a slash and has been read again, and others behind it. -/
structure KnownSince (s t : State) (behind : List Token) (now : Token) :
    Prop where
  /-- These are what is known, apart from what had been read. -/
  known_eq : t.known = behind ++ now :: s.taken
  /-- The one begins where the current token began. -/
  start_eq : now.span.start = s.here
  /-- It is that token, if that could not be read again. -/
  eq_current : s.current.isSlash = false → now = s.current
  /-- It is that token or a regular expression, which is longer if nothing is
  wrong with it. -/
  eq_or_regex : now = s.current ∨ now.kind = .regex
    ∧ (now.error = none → s.current.span.stop < now.span.stop)
  /-- The others begin behind it. -/
  behind : ∀ x ∈ behind, s.here < x.span.start

namespace KnownSince

variable {behind : List Token} {now : Token}

theorem refl (s : State) : KnownSince s s [] s.current :=
  ⟨rfl, rfl, fun _ => rfl, .inl rfl, List.forall_mem_nil _⟩

theorem congr (h : KnownSince s t behind now) (hknown : u.known = t.known) :
    KnownSince s u behind now :=
  { h with known_eq := hknown.trans h.known_eq }

/-- One more token is known. -/
theorem bump (h : KnownSince s t behind now)
    (hlt : s.here < (t.bump root).here) :
    KnownSince s (t.bump root) ((t.bump root).current :: behind) now where
  known_eq := by
    rw [List.cons_append, ← h.known_eq, bump_known, bump_current]
    rfl
  start_eq := h.start_eq
  eq_current := h.eq_current
  eq_or_regex := h.eq_or_regex
  behind := List.forall_mem_cons.2 ⟨hlt, h.behind⟩

/-- A token is read again: the first of those behind, if there is one, and
otherwise the one that was current. -/
theorem rescan (h : KnownSince s t behind now)
    (hslash : t.current.isSlash = true)
    (hhere : (t.rescanRegex root).here = t.here)
    (hkind : (t.rescanRegex root).current.kind = .regex)
    (hlonger : (t.rescanRegex root).current.error = none →
      t.current.span.stop < (t.rescanRegex root).current.span.stop) :
    ∃ behind now, KnownSince s (t.rescanRegex root) behind now := by
  have htaken : (t.rescanRegex root).taken = t.taken :=
    (List.cons.inj (rescanRegex_known root t)).2
  have hknown := h.known_eq
  cases behind with
  | nil =>
    obtain ⟨hcurrent, hrest⟩ := List.cons.inj hknown
    refine ⟨[], (t.rescanRegex root).current, ?_, ?_, fun hnot => ?_,
      .inr ⟨hkind, ?_⟩, List.forall_mem_nil _⟩
    · rw [known, htaken, hrest]
      rfl
    · exact hhere.trans ((congrArg (·.span.start) hcurrent).trans h.start_eq)
    · rw [hcurrent, h.eq_current hnot, hnot] at hslash
      exact nomatch hslash
    · -- A regular expression is not read again.
      obtain rfl | ⟨hregex, -⟩ := h.eq_or_regex
      · rwa [← hcurrent]
      · rw [hcurrent, Token.isSlash_iff, hregex] at hslash
        exact absurd hslash (by decide)
  | cons x behind =>
    obtain ⟨hcurrent, hrest⟩ := List.cons.inj hknown
    obtain ⟨hx, hbehind⟩ := List.forall_mem_cons.1 h.behind
    refine ⟨(t.rescanRegex root).current :: behind, now, ?_, h.start_eq,
      h.eq_current, h.eq_or_regex, List.forall_mem_cons.2 ⟨?_, hbehind⟩⟩
    · rw [known, htaken, hrest]
      rfl
    · rw [← hcurrent] at hx
      exact Nat.lt_of_lt_of_eq hx hhere.symm

end KnownSince

/-- A slash that is read again without fault becomes longer. -/
theorem Good.rescanRegex_lt_stop (hs : s.Good root)
    (hslash : s.current.kind = .punctuator .slash
      ∨ s.current.kind = .punctuator .slashEq)
    (herror : (s.rescanRegex root).current.error = none) :
    s.current.span.stop < (s.rescanRegex root).current.span.stop := by
  obtain ⟨u, _, heq⟩ := rescanRegex_eq root s
  rw [heq] at herror ⊢
  obtain ⟨front, text, h⟩ := hs.faces
  have htext : text = s.current.text.toList := by
    rw [h.spells.text_eq, String.toList_ofList]
  refine Scanner.rescanRegex_lt_stop
    (hs.source_eq.trans (h.source_eq hs)) h.spells ?_ herror
  refine hslash.imp (fun hk => ?_) (fun hk => ?_) <;>
  · rw [htext, h.regular.text_eq _ hk]
    rfl

/-- **The tokens that come to be known** in a run. -/
theorem Acts.exists_known (h : Acts root s t) (hs : s.Good root) :
    ∃ behind now, KnownSince s t behind now := by
  induction h with
  | refl => exact ⟨[], s.current, .refl s⟩
  | @tail t u hst hact ih =>
    obtain ⟨behind, now, hknown⟩ := ih
    have hgood := Acts.good hst hs
    cases hact with
    | bump isEof =>
      have hhere := Acts.here_le hst hs
      have hlt := hgood.here_lt_stop isEof
      have hle := (Act.bump isEof).good hgood |>.consumedTo_le
      rw [bump_consumedTo] at hle
      exact ⟨_, now, hknown.bump (by omega)⟩
    | rescan slash =>
      obtain ⟨_, hhere, hkind⟩ := rescanRegex_good hgood slash
      exact hknown.rescan (Token.isSlash_iff.2 slash) hhere hkind
        (hgood.rescanRegex_lt_stop slash)
    | @report kind severity message span =>
      refine ⟨behind, now, hknown.congr ?_⟩
      rw [(report_reported root kind severity message span t).eq]
      rfl
    | record | level => exact ⟨behind, now, hknown.congr rfl⟩

/-- **The tokens that are read** in a run past the current token. -/
theorem Acts.exists_taken (h : Acts root s t) (hs : s.Good root)
    (hpast : s.here < t.consumedTo) :
    ∃ behind now, t.taken = behind ++ now :: s.taken
      ∧ now.span.start = s.here
      ∧ ∀ x ∈ behind, s.here < x.span.start := by
  obtain ⟨behind, now, hknown, hstart, _, _, hbehind⟩ := h.exists_known hs
  have hle := (h.good hs).consumedTo_le
  cases behind with
  | nil =>
    obtain ⟨hcurrent, _⟩ := List.cons.inj hknown
    rw [← hcurrent] at hstart
    change t.here = s.here at hstart
    omega
  | cons x behind =>
    obtain ⟨_, htaken⟩ := List.cons.inj hknown
    exact ⟨behind, now, htaken, hstart,
      (List.forall_mem_cons.1 hbehind).2⟩

/-- **The comments that are found** in a run stand behind the current
token. -/
theorem Acts.comments (h : Acts root s t) (hs : s.Good root) :
    ∀ c ∈ t.comments, c ∈ s.comments ∨ s.here < c.span.start := by
  induction h with
  | refl => exact fun _ hc => .inl hc
  | @tail t u hst hact ih =>
    have hgood := Acts.good hst hs
    cases hact with
    | bump isEof =>
      intro c hc
      obtain ⟨v, _, heq⟩ := bump_eq root t
      rw [heq] at hc
      rcases Array.mem_append.1 hc with hc | hc
      · exact ih c hc
      · obtain ⟨before, hat, hstop⟩ := hgood.stands.at_stop
        obtain ⟨front, text, hfinds⟩ := t.scanner.nextSignificant_finds hat
        obtain ⟨b, e, hb, _, _, hspan, _⟩ :=
          (keptComments_row root.options hfinds.row).exists_of_mem
            (List.mem_toArray.1 hc)
        have hhere := Acts.here_le hst hs
        have hlt := hgood.here_lt_stop isEof
        rw [hspan]
        exact .inr (show s.here < b by omega)
    | rescan slash =>
      obtain ⟨v, hv, heq⟩ := rescanRegex_eq root t
      rw [heq, hv.eq]
      exact ih
    | @report kind severity message span =>
      rw [(report_reported root kind severity message span t).eq]
      exact ih
    | record | level => exact ih

/-- The first token known is none of the text. -/
theorem initial_taken (root : Context) :
    (initial root).taken = [(blank root.source).current] :=
  (List.cons.inj (bump_known root (blank root.source))).2

/-- The last token read ends where it is said to end. -/
theorem Reached.stop_eq (hs : s.Reached root) :
    ∃ x ∈ s.taken.head?, x.span.stop = s.consumedTo := by
  refine (hs.induction (P := fun s => ∃ x ∈ s.taken.head?,
    x.span.stop = s.consumedTo) ?_ ?_).2
  · exact ⟨_, head?_bump .., (bump_consumedTo ..).symm⟩
  · intro s t _ hact ih
    cases hact with
    | bump isEof => exact ⟨_, head?_bump .., (bump_consumedTo ..).symm⟩
    | rescan slash =>
      obtain ⟨v, hv, heq⟩ := rescanRegex_eq root s
      rw [heq, hv.eq]
      exact ih
    | @report kind severity message span =>
      rw [(report_reported root kind severity message span s).eq]
      exact ih
    | record | level => exact ih

end State

end ScriptTree
