import ScriptTree.Proofs.Chain.Script
import ScriptTree.Proofs.Excerpt.Mirror

/-!
# The front of a piece

A parse of a text comes to a token with a past: the scanner remembers what
it has found before. The parse of a piece that begins with the token has
none. Two things may make it find another token there. A slash divides
where the past tells so, and opens a regular expression otherwise; and what
comes next depends on the dot in front of a reserved word.

Where the current token is no slash and was not found behind a dot, a
scanner without a past finds it too (`State.Lexed`), and so the parse of
the piece begins beside the state (`Excerpt.fresh_initial`).
-/

namespace ScriptTree

variable {c : Char} {cs : List Char}

/-! ## Lexemes without a past -/

namespace Lexeme

/-- **A lexeme that is no slash** is the same whether a slash divides or
not. -/
theorem atFront_of_not_slash {slashDivides : Bool}
    (hcomment : (atFront slashDivides c cs).kind ≠ .comment)
    (hslash : (atFront slashDivides c cs).kind ≠ .punctuator .slash
      ∧ (atFront slashDivides c cs).kind ≠ .punctuator .slashEq) :
    atFront false c cs = atFront slashDivides c cs := by
  cases slashDivides with
  | false => rfl
  | true =>
    have hopens := not_opens_of_kind_ne hcomment
    rw [atFront_eq_noComment hopens] at hslash ⊢
    rw [atFront_eq_noComment hopens]
    have hc : c ≠ '/' := by
      rintro rfl
      exact (noComment_kind_of_divides cs).elim hslash.1 hslash.2
    unfold noComment
    rw [decide_eq_false hc]
    rfl

/-- **Where a slash does not divide** it opens a regular expression, if it
opens no comment. -/
theorem atFront_slash {slashDivides : Bool}
    (hcomment : (atFront slashDivides '/' cs).kind ≠ .comment) :
    atFront false '/' cs = regex cs :=
  atFront_eq_noComment (not_opens_of_kind_ne hcomment)

end Lexeme

namespace Scanner

variable {x y : Scanner} {t : Token}

/-- The scanner without a past. -/
def fresh (x : Scanner) : Scanner :=
  { x with previous := none, breakEmitted := false }

/-- **A scanner right in front of a lexeme**, with the token it finds and
the scanner behind that. -/
structure Begins (y : Scanner) (c : Char) (cs : List Char) (t : Token)
    (x : Scanner) : Prop where
  /-- It stands somewhere in its text. -/
  at_ : ∃ before, y.At before
  /-- The text goes on with the lexeme. -/
  rest_eq : y.rest = c :: cs
  /-- No blank is in front of it. -/
  blank : isBlank c = false
  /-- No line break is in front of it. -/
  line : c ≠ '\n'
  /-- This is what the scanner finds. -/
  next_eq : y.next = (t, x)
  /-- It is a token of the grammar. -/
  extra : t.kind.isExtra = false

/-- What is remembered as a dot is one. -/
theorem kind_of_remember {kind : TokenKind} (hextra : kind.isExtra = false)
    (hdot : (x.remember kind).previous = some (.punctuator .dot)) :
    kind = .punctuator .dot := by
  unfold remember at hdot
  simp only [hextra, Bool.false_eq_true, if_false, Option.some.injEq] at hdot
  cases kind with
  | keyword k =>
    dsimp only at hdot
    split at hdot <;> cases hdot
  | _ => exact hdot

namespace Begins

/-- **The token and the scanner behind it** come from a lexeme. -/
theorem eq (h : y.Begins c cs t x) :
    let lexeme :=
      Lexeme.atFront (y.previous.any TokenKind.canEndExpression) c cs
    t = (y.take lexeme.kind (lexeme.extent + 1) lexeme.error).1
      ∧ x = (y.past (lexeme.extent + 1)).remember lexeme.kind :=
  Prod.mk.inj (h.next_eq.symm.trans (next_cons h.rest_eq h.blank h.line))

theorem kind_eq (h : y.Begins c cs t x) : t.kind
    = (Lexeme.atFront (y.previous.any TokenKind.canEndExpression) c
        cs).kind := by
  rw [h.eq.1]
  rfl

theorem start_eq (h : y.Begins c cs t x) :
    t.span.start = y.position.offset := by
  rw [h.eq.1]
  rfl

/-- A scanner that remembers a dot has found one. -/
theorem previous_eq_dot (h : y.Begins c cs t x)
    (hdot : x.previous = some (.punctuator .dot)) :
    t.isPunctuator .dot = true := by
  rw [h.eq.2, ← h.kind_eq] at hdot
  exact decide_eq_true (kind_of_remember h.extra hdot)

/-- **A scanner without a past** finds the same token, unless that is a
slash or the past holds a dot. -/
theorem fresh (h : y.Begins c cs t x) (hslash : t.isSlash = false)
    (hdot : y.previous ≠ some (.punctuator .dot)) :
    y.fresh.Begins c cs t x := by
  have hextra := h.extra
  have hkind := h.kind_eq
  have hlexeme : Lexeme.atFront false c cs
      = Lexeme.atFront (y.previous.any TokenKind.canEndExpression) c cs := by
    rw [Bool.eq_false_iff, Ne, Token.isSlash_iff, not_or, hkind] at hslash
    refine Lexeme.atFront_of_not_slash (fun hcomment => ?_) hslash
    rw [hkind, hcomment] at hextra
    exact Bool.noConfusion hextra
  obtain ⟨before, hat⟩ := h.at_
  obtain ⟨ht, hx⟩ := h.eq
  refine ⟨⟨before, hat.source_eq, hat.position_eq⟩, h.rest_eq, h.blank,
    h.line, ?_, h.extra⟩
  have hnext := next_cons (x := y.fresh) h.rest_eq h.blank h.line
  rw [show (y.fresh.previous.any TokenKind.canEndExpression) = false from rfl,
    hlexeme] at hnext
  rw [hnext, ht, hx]
  refine Prod.ext rfl ?_
  rw [hkind] at hextra
  have hpast (n : Nat) :
      ((y.past n).previous = some (.punctuator .dot)) = False :=
    eq_false hdot
  simp only [remember, hextra, Bool.false_eq_true, if_false, hpast]
  rfl

/-- A slash is found at one. -/
theorem eq_slash (h : y.Begins c cs t x) (hregular : t.Regular)
    (hslash : t.isSlash = true) : c = '/' := by
  obtain ⟨p, hp, hhead⟩ : ∃ p, t.kind = .punctuator p
      ∧ p.spelling.toList.head? = some '/' := by
    rcases Token.isSlash_iff.1 hslash with hk | hk <;> exact ⟨_, hk, rfl⟩
  rw [← hregular.text_eq p hp, h.eq.1] at hhead
  simp only [take, String.toList_ofList, h.rest_eq, List.take_succ_cons,
    List.head?_cons, Option.some.injEq] at hhead
  exact hhead

/-- **A slash that is read again** is found so by a scanner without a
past. -/
theorem rescan (h : y.Begins c cs t x) (hregular : t.Regular)
    (hslash : t.isSlash = true) :
    y.fresh.Begins c cs (x.rescanRegex t).1 (x.rescanRegex t).2 := by
  obtain rfl := h.eq_slash hregular hslash
  obtain ⟨before, hat⟩ := h.at_
  obtain ⟨ht, hx⟩ := h.eq
  have hsource : x.source = y.source := by
    rw [hx, remember_source]
    rfl
  have hfinished : x.finished = y.finished := by
    rw [hx]
    unfold remember
    split <;> rfl
  have hposition : t.position = y.position := by
    rw [ht]
    rfl
  have hcomment : (Lexeme.atFront
      (y.previous.any TokenKind.canEndExpression) '/' cs).kind
        ≠ .comment := by
    rw [← h.kind_eq]
    intro hkind
    have hextra := h.extra
    rw [hkind] at hextra
    exact Bool.noConfusion hextra
  have hcut : splitAtByte? x.source t.span.start
      = some (before, '/' :: cs) := by
    refine splitAtByte?_eq_some_iff.2 ⟨?_, ?_⟩
    · rw [hsource, ← h.rest_eq]
      exact hat.source_eq
    · rw [h.start_eq, hat.position_eq, Position.after_offset]
  have hnext := next_cons (x := y.fresh) h.rest_eq h.blank h.line
  rw [show (y.fresh.previous.any TokenKind.canEndExpression) = false from rfl,
    Lexeme.atFront_slash hcomment] at hnext
  generalize hlexeme : Lexeme.regex cs = lexeme at hnext
  obtain ⟨kind, n, error⟩ := lexeme
  obtain rfl : TokenKind.regex = kind := congrArg Lexeme.kind hlexeme
  rw [rescanRegex_of_split hcut hlexeme]
  refine ⟨⟨before, hat.source_eq, hat.position_eq⟩, h.rest_eq, h.blank,
    h.line, hnext.trans ?_, rfl⟩
  simp only [take, past, Scanner.fresh, remember, TokenKind.isExtra,
    hsource, hfinished, hposition, h.rest_eq]
  rfl

end Begins

/-- **The next token** begins somewhere, unless the text ends. -/
theorem At.exists_begins {before : List Char} (h : x.At before)
    (found : List Token)
    (heof : (x.nextSignificantFrom found).token.isEof = false) :
    ∃ (y : Scanner) (c : Char) (cs : List Char),
      y.Begins c cs (x.nextSignificantFrom found).token
        (x.nextSignificantFrom found).scanner
      ∧ y.previous = x.previous := by
  fun_induction nextSignificantFrom x found generalizing before with
  | case1 x found step hextra =>
    rename_i ih
    obtain ⟨gap, text, hread⟩ := next_reads h
    obtain ⟨y, c, cs, hbegins, hprevious⟩ := ih hread.at_behind heof
    exact ⟨y, c, cs, hbegins,
      hprevious.trans (next_previous_of_isExtra hextra)⟩
  | case2 x found step =>
    rename_i hextra
    obtain ⟨c, cs, hrest, hblank, hline⟩ := exists_settle_rest heof
      (fun hkind => hextra (congrArg TokenKind.isExtra hkind))
    obtain ⟨gap, _, _, hat⟩ := settle_at h
    have hself : x.settle.settle = x.settle := settle_eq_self (fun d hd => by
      rw [hrest] at hd
      obtain rfl : c = d := Option.some.inj hd
      exact ⟨hblank, fun heq => absurd heq hline⟩)
    exact ⟨x.settle, c, cs, ⟨⟨_, hat⟩, hrest, hblank, hline,
      congrArg read hself, Bool.eq_false_iff.2 hextra⟩, rfl⟩

end Scanner

/-! ## Current tokens -/

namespace State

variable {root : Context} {s t : State}

/-- **A state whose current token was cut off by the rules** of the
language. -/
structure Lexed (s : State) : Prop where
  /-- A dot is remembered only where it is the current token. -/
  dot : s.current.isEof = false →
    s.scanner.previous = some (.punctuator .dot) →
      s.current.isPunctuator .dot = true
  /-- A token that is not behind a dot was found in front of a lexeme. -/
  begins : s.current.isEof = false →
    (∀ token ∈ s.taken.head?, token.isPunctuator .dot = false) →
      ∃ (y : Scanner) (c : Char) (cs : List Char),
        y.Begins c cs s.current s.scanner
          ∧ y.previous ≠ some (.punctuator .dot)

theorem bump_lexed (hat : ∃ before, s.scanner.At before)
    (hdot : s.scanner.previous = some (.punctuator .dot) →
      s.current.isPunctuator .dot = true) : (s.bump root).Lexed := by
  obtain ⟨before, hat⟩ := hat
  have hbegins : (s.bump root).current.isEof = false →
      ∃ (y : Scanner) (c : Char) (cs : List Char),
        y.Begins c cs (s.bump root).current (s.bump root).scanner
          ∧ y.previous = s.scanner.previous := by
    rw [bump_current, bump_scanner]
    exact hat.exists_begins []
  refine ⟨fun heof hprevious => ?_, fun heof htaken => ?_⟩
  · obtain ⟨y, c, cs, hy, _⟩ := hbegins heof
    exact hy.previous_eq_dot hprevious
  · obtain ⟨y, c, cs, hy, hprevious⟩ := hbegins heof
    refine ⟨y, c, cs, hy, fun hyes => ?_⟩
    have hno := htaken _ (head?_bump ..)
    exact Bool.noConfusion (hno.symm.trans (hdot (hprevious ▸ hyes)))

theorem Lexed.rescan (h : s.Lexed) (hs : s.Good root)
    (hslash : s.current.isSlash = true) : (s.rescanRegex root).Lexed := by
  obtain ⟨front, text, hfaces⟩ := hs.faces
  obtain ⟨u, hu, heq⟩ := rescanRegex_eq root s
  rw [heq, hu.eq]
  refine ⟨fun _ hprevious => ?_, fun _ htaken => ?_⟩
  · cases hprevious
  obtain ⟨y, c, cs, hy, _⟩ :=
    h.begins (Token.isEof_of_isSlash hslash) htaken
  exact ⟨y.fresh, c, cs, hy.rescan hfaces.regular hslash,
    fun hprevious => (by cases hprevious)⟩

/-- **A step** keeps to the rules. -/
theorem Step.lexed (h : Step root s t) (hs : s.Good root) (hl : s.Lexed) :
    t.Lexed := by
  cases h with
  | bump isEof =>
    obtain ⟨front, text, hfaces⟩ := hs.faces
    exact bump_lexed ⟨_, hfaces.at_behind⟩ (hl.dot isEof)
  | rescan slash => exact hl.rescan hs (Token.isSlash_iff.2 slash)
  | report kind severity message span =>
    rw [(report_reported root kind severity message span s).eq]
    exact ⟨hl.dot, hl.begins⟩
  | record event => exact ⟨hl.dot, hl.begins⟩

theorem Leads.lexed (h : s.Leads root t) (hs : s.Lexed) : t.Lexed := by
  obtain ⟨hgood, hsteps⟩ := h
  induction hsteps with
  | refl => exact hs
  | tail hsu hstep ih => exact hstep.lexed (Leads.mk hgood hsu).good ih

theorem initial_lexed (root : Context) : (initial root).Lexed :=
  bump_lexed ⟨[], Scanner.ofSource_at _⟩ (fun hprevious => by cases hprevious)

end State

/-! ## Statements that begin with a slash -/

namespace Parse

open ScriptTree.Action

variable {g : Grammar} {ctx : Context} {s : State} {α β : Type}

/-- What only looks at the state goes on from there. -/
theorem look_run {x : Parse α} {f : α → Parse β} (a : α)
    (h : x ctx s = (.ok a, s)) : (x >>= f) ctx s = f a ctx s := by
  rw [bind_run, h]

/-- What begins with the same run is the same. -/
theorem bind_run_congr {x : Parse α} {f : α → Parse β} {t : State}
    (h : x ctx s = x ctx t) : (x >>= f) ctx s = (x >>= f) ctx t := by
  rw [bind_run, bind_run, h]

/-- It does not matter how many levels have been entered. -/
theorem enter_rescan :
    (s.rescanRegex ctx).enter = s.enter.rescanRegex ctx := by
  have hdepth : (s.rescanRegex ctx).depth = s.depth := by
    obtain ⟨t, ht, heq⟩ := State.rescanRegex_eq ctx s
    rw [heq, ht.eq]
  show (s.rescanRegex ctx).atDepth _ = _
  rw [hdepth]
  exact (State.rescanRegex_atDepth ctx _ s).symm

variable (hslash : s.current.isSlash = true)

include hslash

theorem primary_rescan :
    primary g ctx s = primary g ctx (s.rescanRegex ctx) := by
  unfold primary
  rw [look_run (s := s) s.current rfl,
    look_run (s.rescanRegex ctx).current rfl, rescanRegex_kind]
  rcases Token.isSlash_iff.1 hslash with hkind | hkind
  all_goals
    rw [hkind]
    show (rescannedRegex >>= _) ctx s = (regexLiteral >>= _) ctx _
    rw [bind_run, bind_run, rescannedRegex_run]

variable (htable : ctx.table = .standard)

include htable

/-- No operator in front of an operand begins with a slash. -/
theorem operand_rescan :
    operand g ctx s = operand g ctx (s.rescanRegex ctx) := by
  unfold operand
  rw [look_run (s := s) s.current rfl, look_run (s := s) ctx rfl,
    look_run (s.rescanRegex ctx).current rfl,
    look_run (s := s.rescanRegex ctx) ctx rfl, rescanRegex_kind, htable]
  rcases Token.isSlash_iff.1 hslash with hkind | hkind
  all_goals
    rw [hkind]
    exact primary_rescan hslash

theorem expression_rescan {n : Nat} :
    expression (Grammar.levels (n + 1)) ctx s
      = expression (Grammar.levels (n + 1)) ctx (s.rescanRegex ctx) := by
  have hrun : expressionFrom (Grammar.levels n) .lowest ctx s.enter
      = expressionFrom (Grammar.levels n) .lowest ctx
        (s.enter.rescanRegex ctx) :=
    bind_run_congr (operand_rescan (s := s.enter) hslash htable)
  show guarded _ ctx s = guarded _ ctx _
  rw [guarded_run, guarded_run, enter_rescan]
  exact congrArg (fun r : Except ParseError Expression × State =>
    (r.1, r.2.leave)) hrun

variable (hhere : (s.rescanRegex ctx).here = s.here)

include hhere

theorem expressionStatement_rescan {n : Nat} :
    expressionStatement (Grammar.levels (n + 1)) ctx s
      = expressionStatement (Grammar.levels (n + 1)) ctx
        (s.rescanRegex ctx) := by
  unfold expressionStatement
  rw [look_run (s := s) s.here rfl, look_run (s.rescanRegex ctx).here rfl,
    hhere]
  refine bind_run_congr ?_
  rw [tolerant_run, tolerant_run, expression_rescan hslash htable, hhere]

/-- **A statement that begins with a slash** is read as if that had been read
again before. -/
theorem statement_rescan {n : Nat} :
    (Grammar.levels (n + 2)).statement ctx s
      = (Grammar.levels (n + 2)).statement ctx (s.rescanRegex ctx) := by
  have hkind := Token.isSlash_iff.1 hslash
  have hregex := rescanRegex_kind ctx s.enter
  have hrun := calc
    statementFrom (Grammar.levels (n + 1)) ctx s.enter
    _ = expressionStatement (Grammar.levels (n + 1)) ctx s.enter := by
      refine statementFrom_run (s := s.enter) (fun k hk => ?_)
        (fun hk => ?_) (fun hk => ?_) <;>
      · rw [show s.current.kind = _ from hk] at hkind
        rcases hkind with hkind | hkind <;> cases hkind
    _ = expressionStatement (Grammar.levels (n + 1)) ctx
        (s.enter.rescanRegex ctx) :=
      expressionStatement_rescan (s := s.enter) hslash htable hhere
    _ = statementFrom (Grammar.levels (n + 1)) ctx
        (s.enter.rescanRegex ctx) := by
      refine (statementFrom_run (fun k hk => ?_) (fun hk => ?_)
        (fun hk => ?_)).symm <;> cases hregex.symm.trans hk
    _ = statementFrom (Grammar.levels (n + 1)) ctx
        (s.rescanRegex ctx).enter := by rw [enter_rescan]
  show guarded _ ctx s = guarded _ ctx _
  rw [guarded_run, guarded_run]
  exact congrArg (fun r : Except ParseError Statement × State =>
    (r.1, r.2.leave)) hrun

end Parse

/-! ## The front of a piece -/

namespace Excerpt

variable {X : Excerpt} {s : State}

/-- **The parse of a piece begins beside the state** that has come to the
first token of the piece. -/
theorem fresh_initial (hs : s.Good X.mirror.root) (hlexed : s.Lexed)
    (hhere : s.here = X.start) (hclear : s.current.error = none)
    (hslash : s.current.isSlash = false)
    (hdot : ∀ token ∈ s.taken.head?, token.isPunctuator .dot = false)
    (hreaches : Reaches X.stop s.current s.scanner) :
    X.mirror.Fresh s (State.initial X.mirror.image) := by
  obtain ⟨front, text, hbehind, _⟩ := behind_of_good hs
  have hlies := hreaches.lies hbehind hclear
  obtain ⟨y, c, cs, hy, hprevious⟩ := hlexed.begins hlies.isEof hdot
  have hfresh := hy.fresh hslash hprevious
  obtain ⟨before, hat⟩ := hfresh.at_
  -- The scanners at the front of the piece.
  have hcut : before = X.front ∧ y.fresh.rest = X.part ++ X.tail := by
    obtain ⟨gap, text', hread⟩ := Scanner.next_reads hat
    have hsource : y.fresh.source = X.text := by
      rw [← hread.source_eq, hfresh.next_eq]
      exact hs.source_eq
    have hstart : byteLength before = X.start := by
      rw [← hhere, ← Position.after_offset, ← hat.position_eq,
        ← hfresh.start_eq]
      rfl
    have hsplit : splitAtByte? X.text X.start
        = some (before, y.fresh.rest) :=
      splitAtByte?_eq_some_iff.2 ⟨hsource ▸ hat.source_eq, hstart⟩
    have hsplit' : splitAtByte? X.text X.start
        = some (X.front, X.part ++ X.tail) :=
      splitAtByte?_eq_some_iff.2 ⟨rfl, rfl⟩
    exact Prod.mk.inj (Option.some.inj (hsplit.symm.trans hsplit'))
  obtain ⟨rfl, hrest⟩ := hcut
  have hexcerpts : y.fresh.Excerpts X.front X.tail X.stop
      (.ofSource X.part) := by
    refine ⟨⟨[], (List.append_nil _).symm ▸ hat, Scanner.ofSource_at _⟩,
      hrest, ?_, rfl, rfl⟩
    rw [hat.position_eq, Position.after_offset]
    rfl
  have hadvance : y.fresh.nextSignificant = ⟨[], s.current, s.scanner⟩ := by
    unfold Scanner.nextSignificant
    rw [Scanner.nextSignificantFrom_of_not_extra
      (by rw [hfresh.next_eq]; exact hfresh.extra), hfresh.next_eq]
    rfl
  have hnext := hexcerpts.nextSignificant
    (by rw [hadvance]; exact List.forall_mem_nil _)
    (by rw [hadvance]; exact hlies)
  rw [hadvance] at hnext
  have hgood' := State.initial_good X.mirror.image
  obtain ⟨front', text', hbehind', _⟩ := behind_of_good hgood'
  refine ⟨hs, hgood', ?_, hclear, ?_, ?_, ?_⟩
  · refine token_eq ?_ hbehind' hgood'.source_eq
    exact hnext.token
  · rw [State.initial, State.bump_scanner]
    exact hnext.scanner
  · rw [State.initial_consumedTo]
    exact (Nat.sub_eq_zero_of_le (hhere ▸ hs.consumedTo_le)).symm
  · refine State.bump_problems_eq hnext.clear ?_
    exact hnext.token.error_eq.trans hclear

/-- **The statement that is the piece** is read from a state that the parse
of the piece begins beside. -/
theorem exists_fresh {n : Nat} {S : Statement} {t : State}
    (hs : s.Good X.mirror.root) (hlexed : s.Lexed)
    (hhere : s.here = X.start) (hstop : X.start < X.stop)
    (hclear : s.current.error = none)
    (hdot : ∀ token ∈ s.taken.head?, token.isPunctuator .dot = false)
    (hrun : Parse.statement (Grammar.levels (n + 2))
      (X.mirror.root.inList .eof) s = (.ok S, t))
    (hfits : X.mirror.Fits t) :
    ∃ u, X.mirror.Fresh u (State.initial X.mirror.image)
      ∧ u.current.isEof = false
      ∧ (Grammar.levels (n + 2)).statement (X.mirror.root.inList .eof) u
        = (.ok S, t) := by
  -- The statement is on record before it is read.
  obtain ⟨u, hu, hlexed, hhere, hclear, hdot, hrun⟩ : ∃ u : State,
      u.Good X.mirror.root ∧ u.Lexed ∧ u.here = X.start
        ∧ u.current.error = none
        ∧ (∀ token ∈ u.taken.head?, token.isPunctuator .dot = false)
        ∧ (Grammar.levels (n + 2)).statement (X.mirror.root.inList .eof) u
          = (.ok S, t) := by
    have hstep : State.Step X.mirror.root s _ :=
      .record (.statement s.current.span.start s.current.kind)
    exact ⟨_, (hstep.still_or_past hs).1, hstep.lexed hs hlexed, hhere,
      hclear, hdot, hrun⟩
  have hreaches (v : State) (hv : v.Good X.mirror.root)
      (hhere : v.here = X.start)
      (hrun : (Grammar.levels (n + 2)).statement
        (X.mirror.root.inList .eof) v = (.ok S, t)) :
      X.mirror.Fits v ∧ Reaches X.stop v.current v.scanner := by
    have hvt := ((Grammar.levels_sound X.mirror.root (n + 2)).statement.of_run
      ((Context.Within.refl _).inList .eof) hv hrun).1
    have hfits := fits_of_leads hvt hfits
    refine ⟨hfits, hfits.2.resolve_left (fun hend => ?_)⟩
    have hle := hv.consumedTo_le
    omega
  cases hslash : u.current.isSlash with
  | false =>
    have hreaches := (hreaches u hu hhere hrun).2
    exact ⟨u, fresh_initial hu hlexed hhere hclear hslash hdot hreaches,
      hreaches.isEof, hrun⟩
  | true =>
    obtain ⟨hgood, hhere', hkind⟩ :=
      State.rescanRegex_good hu (Token.isSlash_iff.1 hslash)
    have hrun : (Grammar.levels (n + 2)).statement
        (X.mirror.root.inList .eof) (u.rescanRegex X.mirror.root)
          = (.ok S, t) := by
      rw [← hrun]
      exact (Parse.statement_rescan hslash rfl hhere').symm
    obtain ⟨hfits, hreaches⟩ := hreaches _ hgood (hhere'.trans hhere) hrun
    refine ⟨_, fresh_initial hgood (hlexed.rescan hu hslash)
      (hhere'.trans hhere) ?_ ?_ ?_ hreaches, hreaches.isEof, hrun⟩
    · exact (State.rescanRegex_clean (hgood.clean rfl hfits.1)).2
    · rw [Bool.eq_false_iff, Ne, Token.isSlash_iff, hkind]
      rintro (h | h) <;> cases h
    · rwa [(List.cons.inj (State.rescanRegex_known X.mirror.root u)).2]

end Excerpt

end ScriptTree
