import Mathlib.Data.List.Basic
import ScriptTree.Proofs.Account.Act

/-!
# Problems in order

Problems come from two sides. What is wrong with a token is taken down
when the token is read, in the order of the text and never twice. What is
wrong with the grammar is taken down by the productions, and of a token
that is at fault already they say nothing more.

The two meet at one place. Where the grammar has no use for a slash it
says so; if the slash then turns out to begin an operand it is read again,
as a regular expression, and that may be without an end. So there may be
two problems with one slash, but with no other token
(`Diagnostic.Agree`).
-/

namespace ScriptTree

/-! ## Problems in a text -/

/-- Whether the problem is one with a token. -/
def Diagnostic.isLexical (d : Diagnostic) : Bool := d.kind = .lexical

/-- The place a problem takes up. -/
def Diagnostic.Occupies (d : Diagnostic) (b e : Nat) : Prop :=
  d.span = ⟨b, e⟩

/-- **A problem in its place**: its span lies in the text, and its
position is where the span begins. -/
structure Diagnostic.Placed (source : List Char) (d : Diagnostic) :
    Prop where
  /-- The span lies in the text. -/
  framed : d.span.Framed source
  /-- The position is found by counting. -/
  position_eq : d.position = positionAt source d.span.start

/-- **A span that holds a slash**, or a slash and an equals sign. -/
def IsSlash (source : List Char) (span : Span) : Prop :=
  span.slice source = ['/'] ∨ span.slice source = ['/', '=']

/-- **Two problems, the second taken down after the first**, are not one
with a token and one with its place in the grammar; unless the token is a
slash that was read again. -/
structure Diagnostic.Agree (source : List Char) (d e : Diagnostic) :
    Prop where
  /-- A token that is at fault is not one that should not be there. -/
  ne_of_lexical : d.isLexical = true → IsMismatch e.message →
    d.span ≠ e.span
  /-- A token that should not be there is not at fault, unless it is read
  again. -/
  isSlash : IsMismatch d.message → e.isLexical = true → d.span = e.span →
    IsSlash source d.span ∧ e.message = LexError.unterminatedRegex.message

/-- What is wrong with a token is said in other words. -/
theorem LexError.not_isMismatch (error : LexError) :
    ¬IsMismatch error.message := by
  cases error with
  | unexpectedCharacter c =>
    have h := IsMismatch.not_of_head "unexpected character '"
      (c.toString ++ "'") (by decide) (by decide)
    rwa [← String.append_assoc] at h
  | _ => exact fun h => absurd h.head (by decide)

/-- What is left of a row is a row. -/
theorem Row.sublist {α : Type} {R : α → Nat → Nat → Prop} {lo hi : Nat}
    {xs ys : List α} (h : Row R lo hi ys) (hsub : xs.Sublist ys) :
    Row R lo hi xs := by
  induction hsub generalizing lo with
  | slnil => exact h
  | cons y _ ih =>
    obtain ⟨b, e, hb, hbe, _, _, hys⟩ := h
    exact (ih hys).mono (by omega) (Nat.le_refl hi)
  | cons_cons y _ ih =>
    obtain ⟨b, e, hb, hbe, he, hy, hys⟩ := h
    exact ⟨b, e, hb, hbe, he, hy, ih hys⟩

namespace State

variable {root : Context} {s t : State}

/-! ## Problems with tokens -/

/-- What is wrong with a token. -/
def tokenProblem? (root : Context) (token : Token) : Option Diagnostic :=
  token.error.map
    (fun error => root.problem .lexical .error error.message token.span)

/-- **A state with some more problems**, as far as there was room. -/
def Adds (ds : List Diagnostic) (s t : State) : Prop :=
  ∃ ds', ds'.Sublist ds ∧ t.problems = s.problems ++ ds'

theorem Adds.of_eq {ds : List Diagnostic} (h : t.problems = s.problems) :
    Adds ds s t :=
  ⟨[], List.nil_sublist ds, by rw [h, List.append_nil]⟩

theorem Adds.trans {ds ds' : List Diagnostic} {u : State}
    (h : Adds ds s t) (h' : Adds ds' t u) : Adds (ds ++ ds') s u := by
  obtain ⟨xs, hxs, ht⟩ := h
  obtain ⟨ys, hys, hu⟩ := h'
  exact ⟨xs ++ ys, hxs.append hys, by rw [hu, ht, List.append_assoc]⟩

theorem report_adds (root : Context) (kind : DiagnosticKind)
    (severity : Severity) (message : String) (span : Span) (s : State) :
    Adds [root.problem kind severity message span] s
      (s.report root kind severity message span) := by
  cases haborted : s.aborted with
  | true =>
    refine .of_eq (congrArg problems (?_ : _ = s))
    exact if_pos (by rw [haborted]; rfl)
  | false =>
    have hproblems :=
      report_problems root s kind severity message span haborted
    unfold Options.added at hproblems
    split at hproblems
    · exact .of_eq hproblems
    · exact ⟨_, List.Sublist.refl _, hproblems⟩

theorem reportToken_adds (root : Context) (token : Token) (s : State) :
    Adds (tokenProblem? root token).toList s (s.reportToken root token) := by
  unfold reportToken tokenProblem?
  split
  · rename_i herror
    rw [herror]
    exact report_adds ..
  · exact .of_eq rfl

theorem foldl_passExtra_adds (root : Context) (extras : List Token)
    (s : State) :
    Adds (extras.filterMap (tokenProblem? root)) s
      (extras.foldl (passExtra root) s) := by
  induction extras generalizing s with
  | nil => exact .of_eq rfl
  | cons x extras ih =>
    have hpass : Adds (tokenProblem? root x).toList s
        (s.passExtra root x) := by
      obtain ⟨ds, hds, hproblems⟩ := reportToken_adds root x s
      unfold passExtra
      split
      · exact .of_eq rfl
      · refine ⟨ds, hds, ?_⟩
        dsimp only
        split
        · exact hproblems
        · exact hproblems
    have hcons : (x :: extras).filterMap (tokenProblem? root)
        = (tokenProblem? root x).toList
          ++ extras.filterMap (tokenProblem? root) := by
      rw [List.filterMap_cons]
      cases tokenProblem? root x <;> rfl
    rw [hcons]
    exact hpass.trans (ih _)

/-- **Reading a token** takes down what is wrong with what is passed, and
then what is wrong with the next token. -/
theorem bump_adds (root : Context) (s : State) :
    Adds (s.scanner.nextSignificant.extras.filterMap (tokenProblem? root)
        ++ (tokenProblem? root s.scanner.nextSignificant.token).toList)
      s (s.bump root) := by
  have h₁ := foldl_passExtra_adds root s.scanner.nextSignificant.extras
    { s with
      scanner := s.scanner.nextSignificant.scanner
      consumedTo := s.current.span.stop
      taken := s.current :: s.taken
      newlineBefore := false }
  exact h₁.trans (reportToken_adds root s.scanner.nextSignificant.token _)

theorem rescanRegex_adds (root : Context) (s : State) :
    Adds (tokenProblem? root (s.scanner.rescanRegex s.current).1).toList s
      (s.rescanRegex root) :=
  reportToken_adds root (s.scanner.rescanRegex s.current).1
    { s with scanner := (s.scanner.rescanRegex s.current).2 }

/-- **Where nothing is wrong with what is read**, no problem is taken
down. -/
theorem bump_problems_eq
    (hextras : ∀ x ∈ s.scanner.nextSignificant.extras, x.error = none)
    (htoken : s.scanner.nextSignificant.token.error = none) :
    (s.bump root).problems = s.problems := by
  obtain ⟨ds, hds, heq⟩ := bump_adds root s
  have hnone {x : Token} (h : x.error = none) :
      tokenProblem? root x = none := by
    rw [tokenProblem?, h]
    rfl
  rw [hnone htoken, List.filterMap_eq_nil_iff.2 (fun x hx =>
    hnone (hextras x hx))] at hds
  rw [heq, List.sublist_nil.1 hds, List.append_nil]

theorem rescanRegex_problems_eq
    (hclear : (s.scanner.rescanRegex s.current).1.error = none) :
    (s.rescanRegex root).problems = s.problems := by
  obtain ⟨ds, hds, heq⟩ := rescanRegex_adds root s
  rw [tokenProblem?, hclear] at hds
  rw [heq, List.sublist_nil.1 hds, List.append_nil]

theorem Adds.isPrefix {ds : List Diagnostic} (h : Adds ds s t) :
    s.problems <+: t.problems := by
  obtain ⟨ds', _, heq⟩ := h
  rw [heq]
  exact List.prefix_append _ _

/-- **What has been taken down stays.** -/
theorem Step.problems_prefix (h : Step root s t) :
    s.problems <+: t.problems := by
  cases h with
  | bump => exact (bump_adds root s).isPrefix
  | rescan => exact (rescanRegex_adds root s).isPrefix
  | report => exact (report_adds ..).isPrefix
  | record => exact List.prefix_rfl

theorem Steps.problems_prefix (h : Steps root s t) :
    s.problems <+: t.problems := by
  induction h with
  | refl => exact List.prefix_rfl
  | tail _ hstep ih => exact ih.trans hstep.problems_prefix

theorem Act.problems_prefix (h : Act root s t) :
    s.problems <+: t.problems := by
  cases h with
  | bump isEof => exact Step.problems_prefix (.bump isEof)
  | rescan slash => exact Step.problems_prefix (.rescan slash)
  | report severity =>
    exact Step.problems_prefix (.report _ severity _ _)
  | record | level => exact List.prefix_rfl

/-- **Problems with tokens in a row** between two offsets. -/
structure TokenProblems (root : Context) (lo hi : Nat)
    (ds : List Diagnostic) : Prop where
  /-- They stand in a row. -/
  row : Row Diagnostic.Occupies lo hi ds
  /-- Each is where its token is. -/
  placed : ∀ d ∈ ds, d.Placed root.source
  /-- Each is a problem with a token. -/
  isLexical : ∀ d ∈ ds, d.isLexical = true
  /-- Each says so. -/
  not_isMismatch : ∀ d ∈ ds, ¬IsMismatch d.message

theorem TokenProblems.sublist {lo hi : Nat} {ds ds' : List Diagnostic}
    (h : TokenProblems root lo hi ds) (hsub : ds'.Sublist ds) :
    TokenProblems root lo hi ds' where
  row := h.row.sublist hsub
  placed d hd := h.placed d (hsub.subset hd)
  isLexical d hd := h.isLexical d (hsub.subset hd)
  not_isMismatch d hd := h.not_isMismatch d (hsub.subset hd)

/-- Tokens in a row have their problems in a row. -/
theorem tokenProblems_of_row {lo hi : Nat} {ts : List Token}
    (h : Row (Token.Occupies root.source) lo hi ts) :
    TokenProblems root lo hi (ts.filterMap (tokenProblem? root)) := by
  have hproblem : ∀ d ∈ ts.filterMap (tokenProblem? root),
      ∃ x ∈ ts, ∃ error : LexError,
        d = root.problem .lexical .error error.message x.span := by
    intro d hd
    obtain ⟨x, hx, hd⟩ := List.mem_filterMap.1 hd
    obtain ⟨error, _, rfl⟩ := Option.map_eq_some_iff.1 hd
    exact ⟨x, hx, error, rfl⟩
  refine ⟨?_, ?_, ?_, ?_⟩
  · rw [List.filterMap_eq_flatMap_toList]
    refine h.flatMap (fun x b e hbe hx => ?_)
    unfold tokenProblem?
    cases x.error with
    | none => exact .nil
    | some error =>
      exact .single (R := Diagnostic.Occupies) hx.1 (Nat.le_refl b) hbe
        (Nat.le_refl e)
  · intro d hd
    obtain ⟨x, hx, error, rfl⟩ := hproblem d hd
    obtain ⟨b, e, _, _, _, hx⟩ := h.exists_of_mem hx
    exact ⟨hx.2.1.framed, rfl⟩
  · intro d hd
    obtain ⟨x, hx, error, rfl⟩ := hproblem d hd
    rfl
  · intro d hd
    obtain ⟨x, hx, error, rfl⟩ := hproblem d hd
    exact error.not_isMismatch

/-! ## Problems of a state -/

/-- Where the problems with tokens may end: before the current token,
unless it has one itself. -/
def mark (s : State) : Nat :=
  if s.current.error.isSome then s.current.span.stop else s.here

/-- **A state whose problems are in order.** -/
structure Orderly (root : Context) (s : State) : Prop where
  /-- Each problem is in its place. -/
  placed : ∀ d ∈ s.problems, d.Placed root.source
  /-- A problem with a token says so. -/
  not_isMismatch : ∀ d ∈ s.problems, d.isLexical = true →
    ¬IsMismatch d.message
  /-- The problems with tokens stand in a row. -/
  row : Row Diagnostic.Occupies 0 s.mark
    (s.problems.filter Diagnostic.isLexical)
  /-- None is one with a token that was read and had nothing wrong with
  it. -/
  apart : ∀ x ∈ s.taken, x.error = none →
    ∀ d ∈ s.problems, d.isLexical = true → d.span ≠ x.span
  /-- No token has been found in a wrong place beyond the current one. -/
  start_le : ∀ d ∈ s.problems, IsMismatch d.message →
    d.span.start ≤ s.here
  /-- If one has been found where the current one begins it is the current
  one, or it was a slash. -/
  at_here : ∀ d ∈ s.problems, IsMismatch d.message →
    d.span.start = s.here → s.here < d.span.stop →
      d.span = s.current.span ∨ IsSlash root.source d.span
  /-- No two problems say two things about one token. -/
  pairwise : s.problems.Pairwise (Diagnostic.Agree root.source)

/-- Nothing else that is wrong with tokens lies where a token without
fault does. -/
theorem Orderly.current_apart (h : s.Orderly root)
    (herror : s.current.error = none) :
    ∀ d ∈ s.problems, d.isLexical = true → d.span ≠ s.current.span := by
  intro d hd hlexical heq
  obtain ⟨b, e, _, hbe, he, hspan⟩ :=
    h.row.exists_of_mem (List.mem_filter.2 ⟨hd, hlexical⟩)
  have hmark : s.mark = s.here := by
    unfold mark
    rw [herror]
    rfl
  have hb : b = s.here := by
    unfold here
    rw [← heq, show d.span = _ from hspan]
  omega

/-- What problems with tokens add to the order. -/
theorem Orderly.append {ds : List Diagnostic} {lo : Nat}
    (h : s.Orderly root) (hproblems : t.problems = s.problems ++ ds)
    (hds : TokenProblems root lo t.mark ds) (hmark : s.mark ≤ lo)
    (hle : lo ≤ t.mark)
    (hknown : ∀ x ∈ t.taken, x.error = none →
      x.span.stop ≤ lo ∧ (x ∈ s.taken ∨ x = s.current))
    (hstart : ∀ d ∈ s.problems, IsMismatch d.message →
      d.span.start ≤ t.here)
    (hhere : ∀ d ∈ s.problems, IsMismatch d.message →
      d.span.start = t.here → t.here < d.span.stop →
        d.span = t.current.span ∨ IsSlash root.source d.span)
    (hagree : ∀ d ∈ s.problems, ∀ e ∈ ds, IsMismatch d.message →
      d.span = e.span →
      IsSlash root.source d.span
        ∧ e.message = LexError.unterminatedRegex.message) :
    t.Orderly root := by
  have hmem : ∀ {P : Diagnostic → Prop}, (∀ d ∈ s.problems, P d) →
      (∀ d ∈ ds, P d) → ∀ d ∈ t.problems, P d := by
    intro P h₁ h₂ d hd
    rw [hproblems] at hd
    exact (List.mem_append.1 hd).elim (h₁ d) (h₂ d)
  refine ⟨?_, ?_, ?_, ?_, ?_, ?_, ?_⟩
  · exact hmem h.placed hds.placed
  · exact hmem h.not_isMismatch (fun d hd _ => hds.not_isMismatch d hd)
  · rw [hproblems, List.filter_append, List.filter_eq_self.2 hds.isLexical]
    exact h.row.append hds.row (Nat.zero_le _) hmark
      (Nat.le_trans hmark hle)
  · intro x hx herror
    obtain ⟨hstop, hold⟩ := hknown x hx herror
    refine hmem ?_ ?_
    · rcases hold with hx | rfl
      · exact h.apart x hx herror
      · exact h.current_apart herror
    · -- A new problem lies behind all that was read.
      intro d hd _ heq
      obtain ⟨b, e, hb, hbe, _, hspan⟩ := hds.row.exists_of_mem hd
      rw [← heq, show d.span = _ from hspan] at hstop
      have hstop : e ≤ lo := hstop
      omega
  · exact hmem hstart (fun d hd hm => absurd hm (hds.not_isMismatch d hd))
  · exact hmem hhere (fun d hd hm => absurd hm (hds.not_isMismatch d hd))
  · rw [hproblems, List.pairwise_append]
    refine ⟨h.pairwise, ?_,
      fun d hd e he => ⟨fun _ hm => ?_, fun hm _ heq => ?_⟩⟩
    · refine List.pairwise_of_forall_mem_list (fun d hd e he => ⟨?_, ?_⟩)
      · exact fun _ hm => absurd hm (hds.not_isMismatch e he)
      · exact fun hm => absurd hm (hds.not_isMismatch d hd)
    · exact absurd hm (hds.not_isMismatch e he)
    · exact hagree d hd e he hm heq

/-! ## Acts keep the order -/

/-- What reading a token adds stands behind the token read. -/
theorem Stands.tokenProblems (h : s.Stands root) :
    TokenProblems root s.current.span.stop (s.bump root).mark
        (s.scanner.nextSignificant.extras.filterMap (tokenProblem? root)
          ++ (tokenProblem? root s.scanner.nextSignificant.token).toList)
      ∧ s.current.span.stop ≤ (s.bump root).here := by
  obtain ⟨before, hat, hstop⟩ := h.at_stop
  obtain ⟨front, text, hfinds⟩ := s.scanner.nextSignificant_finds hat
  have hcurrent : (s.bump root).current
      = s.scanner.nextSignificant.token := rfl
  have hhere : (s.bump root).here = byteLength front := by
    unfold here
    rw [hcurrent, hfinds.spells.span_eq]
  have hsource : root.source
      = front ++ (text ++ s.scanner.nextSignificant.scanner.rest) := by
    rw [← h.source_eq, ← hfinds.source_eq, hfinds.at_behind.source_eq,
      List.append_assoc]
  have hrow := hfinds.row
  rw [h.source_eq, ← hstop] at hrow
  refine ⟨?_, by rw [hhere, hstop]; exact hfinds.le⟩
  unfold mark
  rw [hcurrent]
  cases herror : s.scanner.nextSignificant.token.error with
  | none =>
    have hnone : tokenProblem? root s.scanner.nextSignificant.token
        = none := by
      rw [tokenProblem?, herror]
      rfl
    rw [hnone, Option.toList_none, List.append_nil]
    show TokenProblems root _ (s.bump root).here _
    rw [hhere]
    exact tokenProblems_of_row hrow
  | some error =>
    -- The token is not the end of the text, and so it is not empty.
    have hne : text ≠ [] := by
      intro h0
      have heof := hfinds.text_eq_nil_iff.1 h0
      have hkind : s.scanner.nextSignificant.token.kind = .eof :=
        of_decide_eq_true heof
      have hnone := s.scanner.nextSignificant_regular.error_eq
        (by rw [hkind]; rfl)
      exact nomatch herror.symm.trans hnone
    have hoccupies := hfinds.spells.occupies hsource hne
    have hpos := byteLength_pos hne
    have hall := hrow.append (.single hoccupies (Nat.le_refl _)
      (by omega) (Nat.le_refl _)) (by rw [hstop]; exact hfinds.le)
      (Nat.le_refl _) (Nat.le_add_right _ _)
    have hlist : (s.scanner.nextSignificant.extras
          ++ [s.scanner.nextSignificant.token]).filterMap
          (tokenProblem? root)
        = s.scanner.nextSignificant.extras.filterMap (tokenProblem? root)
          ++ (tokenProblem? root
            s.scanner.nextSignificant.token).toList := by
      rw [List.filterMap_append, List.filterMap_cons, List.filterMap_nil]
      cases tokenProblem? root s.scanner.nextSignificant.token <;> rfl
    show TokenProblems root _ s.scanner.nextSignificant.token.span.stop _
    rw [hfinds.spells.span_eq, ← hlist]
    exact tokenProblems_of_row hall

theorem mark_le_stop (h : s.here ≤ s.current.span.stop) :
    s.mark ≤ s.current.span.stop := by
  unfold mark
  split
  · exact Nat.le_refl _
  · exact h

theorem here_le_mark (h : s.here ≤ s.current.span.stop) :
    s.here ≤ s.mark := by
  unfold mark
  split
  · exact h
  · exact Nat.le_refl _

theorem Orderly.bump (h : s.Orderly root) (hs : s.Sound root)
    (hstands : s.Stands root) (hgood : (s.bump root).Good root)
    (hmark : s.mark ≤ s.current.span.stop)
    (hlt : ∀ d ∈ s.problems, IsMismatch d.message →
      d.span.start < s.current.span.stop) :
    (s.bump root).Orderly root := by
  obtain ⟨ds, hds, hproblems⟩ := bump_adds root s
  obtain ⟨hnew, hle⟩ := hstands.tokenProblems
  have htaken : (s.bump root).taken = s.known := by
    obtain ⟨t, _, heq⟩ := bump_eq root s
    rw [heq]
    rfl
  have hhere := here_le_mark hgood.here_le_stop
  refine h.append hproblems (hnew.sublist hds) hmark
    (Nat.le_trans hle hhere) ?_ ?_ ?_ ?_
  · intro x hx _
    rw [htaken] at hx
    rcases List.mem_cons.1 hx with rfl | hx
    · exact ⟨Nat.le_refl _, .inr rfl⟩
    · exact ⟨Nat.le_trans (hs.taken_le x hx) hstands.consumedTo_le,
        .inl hx⟩
  · exact fun d hd hm => Nat.le_trans (Nat.le_of_lt (hlt d hd hm)) hle
  · intro d hd hm hstart
    have := hlt d hd hm
    omega
  · intro d hd e he hm heq
    obtain ⟨b, _, hb, _, _, hspan⟩ := (hnew.sublist hds).row.exists_of_mem he
    have hlt := hlt d hd hm
    rw [heq, show e.span = _ from hspan] at hlt
    have hlt : b < s.current.span.stop := hlt
    omega

theorem blank_orderly (root : Context) :
    (blank root.source).Orderly root where
  placed _ h := nomatch h
  not_isMismatch _ h := nomatch h
  row := .nil
  apart _ h := nomatch h
  start_le _ h := nomatch h
  at_here _ h := nomatch h
  pairwise := .nil

/-- The text of a slash is a slash. -/
theorem Good.isSlash (hgood : s.Good root) (hs : s.Sound root)
    (hslash : s.current.kind = .punctuator .slash
      ∨ s.current.kind = .punctuator .slashEq) :
    IsSlash root.source s.current.span := by
  have heof : s.current.isEof = false := by
    rcases hslash with hk | hk <;> simp [Token.isEof, hk]
  obtain ⟨_, _, htext⟩ := hgood.current_occupies heof
  have hregular := hs.regular _ List.mem_cons_self
  have hslice : ∀ p, s.current.kind = .punctuator p →
      s.current.span.slice root.source = p.spelling.toList := by
    intro p hp
    rw [← hregular.text_eq p hp, htext, String.toList_ofList]
  refine hslash.imp (fun hk => ?_) (fun hk => ?_)
  · rw [hslice _ hk]
    decide
  · rw [hslice _ hk]
    decide

/-- What reading a token again adds stands where the token does. -/
theorem Good.rescanProblems (hgood : (s.rescanRegex root).Good root)
    (hhere : (s.rescanRegex root).here = s.here)
    (hkind : (s.rescanRegex root).current.kind = .regex) :
    TokenProblems root s.here (s.rescanRegex root).mark
        (tokenProblem? root (s.rescanRegex root).current).toList := by
  unfold mark
  cases herror : (s.rescanRegex root).current.error with
  | none =>
    rw [tokenProblem?, herror]
    exact ⟨.nil, fun _ h => (nomatch h), fun _ h => (nomatch h),
      fun _ h => nomatch h⟩
  | some error =>
    have hoccupies := hgood.current_occupies (by simp [Token.isEof, hkind])
    have hlt := hgood.here_lt_stop (by simp [Token.isEof, hkind])
    rw [hhere] at hoccupies hlt
    have hrow : Row (Token.Occupies root.source) s.here
        (s.rescanRegex root).current.span.stop
        [(s.rescanRegex root).current] :=
      .single hoccupies (Nat.le_refl _) hlt (Nat.le_refl _)
    have hproblems := tokenProblems_of_row hrow
    rw [List.filterMap_cons, tokenProblem?, herror] at hproblems
    rw [tokenProblem?, herror]
    exact hproblems

theorem Orderly.rescanRegex (h : s.Orderly root) (hs : s.Sound root)
    (hgood : s.Good root)
    (hslash : s.current.kind = .punctuator .slash
      ∨ s.current.kind = .punctuator .slashEq) :
    (s.rescanRegex root).Orderly root := by
  have herror : s.current.error = none := by
    refine (hs.regular _ List.mem_cons_self).error_eq ?_
    rcases hslash with hk | hk <;> rw [hk] <;> rfl
  obtain ⟨hgood', hhere, hkind⟩ := rescanRegex_good hgood hslash
  obtain ⟨ds, hds, hproblems⟩ := rescanRegex_adds root s
  have hnew := (hgood'.rescanProblems hhere hkind).sublist hds
  have htaken : (s.rescanRegex root).taken = s.taken :=
    (List.cons.inj (rescanRegex_known root s)).2
  have hmark : s.mark = s.here := by
    unfold mark
    rw [herror]
    rfl
  have hmark' : s.here ≤ (s.rescanRegex root).mark := by
    rw [← hhere]
    exact here_le_mark hgood'.here_le_stop
  -- A token found in a wrong place that begins here was this slash.
  have hold : ∀ d ∈ s.problems, IsMismatch d.message →
      d.span.start = s.here → s.here < d.span.stop →
        IsSlash root.source d.span := by
    intro d hd hm hstart hstop
    rcases h.at_here d hd hm hstart hstop with heq | hslash'
    · rw [heq]
      exact hgood.isSlash hs hslash
    · exact hslash'
  refine h.append hproblems hnew (Nat.le_of_eq hmark) hmark' ?_ ?_ ?_ ?_
  · intro x hx _
    rw [htaken] at hx
    exact ⟨Nat.le_trans (hs.taken_le x hx) hgood.consumedTo_le, .inl hx⟩
  · rw [hhere]
    exact h.start_le
  · rw [hhere]
    exact fun d hd hm hstart hstop => .inr (hold d hd hm hstart hstop)
  · intro d hd e he hm heq
    obtain ⟨b, e', hb, hbe, _, hspan⟩ := hnew.row.exists_of_mem he
    have hle := h.start_le d hd hm
    rw [show e.span = _ from hspan] at heq
    rw [heq] at hle
    have hle : b ≤ s.here := hle
    refine ⟨hold d hd hm ?_ ?_, ?_⟩
    · rw [heq]
      show b = s.here
      omega
    · rw [heq]
      show s.here < e'
      omega
    · -- What is new is what is wrong with the regular expression.
      obtain ⟨error, herror', rfl⟩ :=
        Option.map_eq_some_iff.1 (Option.mem_toList.1 (hds.subset he))
      have hregex : (s.scanner.rescanRegex s.current).1.error = none
          ∨ (s.scanner.rescanRegex s.current).1.error
            = some .unterminatedRegex :=
        regexExtent_error false _ 0
      rcases hregex with hnone | hsome
      · exact absurd (herror'.symm.trans hnone) (Option.some_ne_none _)
      · obtain rfl := Option.some.inj (herror'.symm.trans hsome)
        rfl

/-- Where no problem is added and the tokens are the same, the order is
kept. -/
theorem Orderly.congr (h : s.Orderly root) (hknown : t.known = s.known)
    (hproblems : t.problems = s.problems) : t.Orderly root := by
  obtain ⟨hcurrent, htaken⟩ := List.cons.inj hknown
  have hhere : t.here = s.here := by unfold here; rw [hcurrent]
  have hmark : t.mark = s.mark := by unfold mark; rw [hcurrent, hhere]
  refine ⟨?_, ?_, ?_, ?_, ?_, ?_, ?_⟩ <;>
    simp only [hcurrent, htaken, hhere, hmark, hproblems]
  · exact h.placed
  · exact h.not_isMismatch
  · exact h.row
  · exact h.apart
  · exact h.start_le
  · exact h.at_here
  · exact h.pairwise

/-- **A problem taken down for a reason** keeps the order. -/
theorem Orderly.report (h : s.Orderly root) (hs : s.Sound root)
    (hgood : s.Good root) {kind : DiagnosticKind} (severity : Severity)
    {message : String} {span : Span}
    (hwarrants : s.Warrants root kind message span) :
    (s.report root kind severity message span).Orderly root := by
  have hr := report_reported root kind severity message span s
  have hsame : (s.report root kind severity message span).known = s.known := by
    rw [hr.eq]
    rfl
  obtain ⟨ds, hds, hproblems⟩ :=
    report_adds root kind severity message span s
  generalize hd : root.problem kind severity message span = d at hds
  rcases List.sublist_singleton.1 hds with rfl | rfl
  · rw [List.append_nil] at hproblems
    exact h.congr hsame hproblems
  obtain ⟨hcurrent, htaken⟩ := List.cons.inj hsame
  have hhere : (s.report root kind severity message span).here = s.here := by
    unfold here
    rw [hcurrent]
  have hmark : (s.report root kind severity message span).mark = s.mark := by
    unfold mark
    rw [hcurrent, hhere]
  have hbefore : ∀ x ∈ s.taken, x.span.stop ≤ s.here := fun x hx =>
    Nat.le_trans (hs.taken_le x hx) hgood.consumedTo_le
  have hlexical : d.isLexical = false := by
    rw [← hd]
    exact decide_eq_false hwarrants.ne_lexical
  have hmismatch : IsMismatch d.message →
      ∃ x ∈ s.known, x.error = none ∧ x.span = d.span := by
    rw [← hd]
    exact hwarrants.of_mismatch
  have hmem : ∀ {P : Diagnostic → Prop}, (∀ d ∈ s.problems, P d) → P d →
      ∀ e ∈ (s.report root kind severity message span).problems, P e := by
    intro P h₁ h₂ e he
    rw [hproblems] at he
    rcases List.mem_append.1 he with he | he
    · exact h₁ e he
    · exact List.mem_singleton.1 he ▸ h₂
  refine ⟨?_, ?_, ?_, ?_, ?_, ?_, ?_⟩
  · refine hmem h.placed ?_
    rw [← hd]
    exact ⟨hwarrants.framed, rfl⟩
  · exact hmem h.not_isMismatch (fun hl => nomatch hlexical.symm.trans hl)
  · rw [hproblems, hmark, List.filter_append,
      List.filter_cons_of_neg (by simp [hlexical]), List.filter_nil,
      List.append_nil]
    exact h.row
  · rw [htaken]
    exact fun x hx hnone => hmem (h.apart x hx hnone)
      (fun hl => nomatch hlexical.symm.trans hl)
  · rw [hhere]
    refine hmem h.start_le (fun hm => ?_)
    obtain ⟨x, hx, _, heq⟩ := hmismatch hm
    rw [← heq]
    rcases List.mem_cons.1 hx with rfl | htail
    · exact Nat.le_refl _
    · exact Nat.le_trans (hs.framed x hx).le (hbefore x htail)
  · rw [hhere, hcurrent]
    refine hmem h.at_here (fun hm _ hstop => ?_)
    obtain ⟨x, hx, _, heq⟩ := hmismatch hm
    rw [← heq] at hstop ⊢
    rcases List.mem_cons.1 hx with rfl | htail
    · exact .inl rfl
    · exact absurd (hbefore x htail) (Nat.not_le.2 hstop)
  · rw [hproblems, List.pairwise_append]
    refine ⟨h.pairwise, List.pairwise_singleton _ _, fun e he f hf => ?_⟩
    obtain rfl := List.mem_singleton.1 hf
    refine ⟨fun hl hm => ?_, fun _ hl => nomatch hlexical.symm.trans hl⟩
    obtain ⟨x, hx, hnone, heq⟩ := hmismatch hm
    rw [← heq]
    rcases List.mem_cons.1 hx with rfl | hx
    · exact h.current_apart hnone e he hl
    · exact h.apart x hx hnone e he hl

theorem Act.orderly (h : Act root s t) (hgood : s.Good root)
    (hs : s.Sound root) (ho : s.Orderly root) : t.Orderly root := by
  have hgood' := h.good hgood
  cases h with
  | bump isEof =>
    refine ho.bump hs hgood.stands hgood' (mark_le_stop hgood.here_le_stop) ?_
    exact fun d hd hm => Nat.lt_of_le_of_lt (ho.start_le d hd hm)
      (hgood.here_lt_stop isEof)
  | rescan slash => exact ho.rescanRegex hs hgood slash
  | report severity warrants => exact ho.report hs hgood severity warrants
  | record | level => exact ho.congr rfl rfl

/-- **The problems of a state that is reached are in order.** -/
theorem Reached.orderly (hs : s.Reached root) : s.Orderly root := by
  refine (hs.induction (P := fun s => s.Sound root ∧ s.Orderly root)
    ?_ (fun _ _ hgood h hs =>
      ⟨h.sound hgood hs.1, h.orderly hgood hs.1 hs.2⟩)).2.2
  refine ⟨(blank_stands root).bump_sound (blank_sound root)
    (initial_good root), ?_⟩
  exact (blank_orderly root).bump (blank_sound root) (blank_stands root)
    (initial_good root) (Nat.le_refl _) (fun _ hd => nomatch hd)

end State

end ScriptTree
