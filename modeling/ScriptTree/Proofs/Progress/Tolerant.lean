import ScriptTree.Proofs.Break.Course
import ScriptTree.Proofs.Progress.Script
import ScriptTree.Proofs.Words.Mending

/-!
# A tolerant point mends or leaves its place

What fails at a tolerant point is either mended or handed on. Whether it
is mended depends on offsets alone: the place where the point was entered
is compared with the one where the failure left the parse, and if they are
the same and no token can be passed over, the failure stands. Nothing in
this looks at the tokens that were read in between.

It is enough nevertheless. A run that ends where it began has read no
token, and has changed its current token at most by reading a slash as a
regular expression (`State.Leads.sameCursor_or_regex`). But a regular
expression can be passed over. So a failure that stands was met exactly
where the point was entered, and one that is mended has taken some text
with it (`tolerant_mends_or_stays`).
-/

namespace ScriptTree

variable {root ctx : Context} {s t u : State} {α : Type}

theorem Except.exists_error {ε : Type} {r : Except ε α}
    (h : r.toBool = false) : ∃ error, r = .error error := by
  cases r with
  | ok a => exact nomatch h
  | error error => exact ⟨error, rfl⟩

theorem Except.exists_ok {ε : Type} {r : Except ε α}
    (h : r.toBool = true) : ∃ a, r = .ok a := by
  cases r with
  | ok a => exact ⟨a, rfl⟩
  | error error => exact nomatch h

namespace State

/-! ## What a run has read -/

/-- **Two states with one cursor**: they stand at the same token, and so
does the scanner. -/
structure SameCursor (s t : State) : Prop extends Still s t where
  /-- The scanner goes on from the same place. -/
  scanner_eq : t.scanner = s.scanner
  /-- The same tokens have been read. -/
  taken_eq : t.taken = s.taken

namespace SameCursor

theorem refl (s : State) : s.SameCursor s := ⟨⟨rfl, rfl, rfl⟩, rfl, rfl⟩

theorem trans (h₁ : s.SameCursor t) (h₂ : t.SameCursor u) :
    s.SameCursor u where
  consumedTo_eq := h₂.consumedTo_eq.trans h₁.consumedTo_eq
  current_eq := h₂.current_eq.trans h₁.current_eq
  newlineBefore_eq := h₂.newlineBefore_eq.trans h₁.newlineBefore_eq
  scanner_eq := h₂.scanner_eq.trans h₁.scanner_eq
  taken_eq := h₂.taken_eq.trans h₁.taken_eq

end SameCursor

theorem Reported.sameCursor (h : s.Reported ctx t) : s.SameCursor t := by
  rw [h.eq]
  exact ⟨⟨rfl, rfl, rfl⟩, rfl, rfl⟩

/-- To take down an error is to report it, unless that has been done. -/
theorem reportError_reported (ctx : Context) (kind : DiagnosticKind)
    (error : ParseError) (s : State) :
    s.Reported ctx (s.reportError ctx kind error) := by
  unfold reportError
  split
  · exact .refl ctx s
  · exact report_reported ..

/-- **A run that ends where it began** has read no token. At most it has
read the current one as a regular expression. -/
theorem Leads.sameCursor_or_regex (h : s.Leads root t)
    (hhere : t.here = s.here) :
    s.SameCursor t ∨ t.current.kind = .regex := by
  obtain ⟨hs, hsteps⟩ := h
  induction hsteps with
  | refl => exact .inl (.refl s)
  | @tail t u hst step ih =>
    have hleads : s.Leads root t := ⟨hs, hst⟩
    have hle := hleads.here_le
    have hle' := (Leads.step hleads.good step).here_le
    have ih := ih (by omega)
    cases step with
    | bump isEof =>
      -- A token that is read is passed.
      have hlt := hleads.good.here_lt_stop isEof
      have hcons := (Leads.step hleads.good (.bump isEof)).good.consumedTo_le
      rw [bump_consumedTo] at hcons
      omega
    | rescan slash => exact .inr (rescanRegex_good hleads.good slash).2.2
    | report kind severity message span =>
      have hsame :=
        (report_reported root kind severity message span t).sameCursor
      exact ih.imp (·.trans hsame) (fun h => hsame.current_eq ▸ h)
    | record event => exact ih.imp (·.trans ⟨⟨rfl, rfl, rfl⟩, rfl, rfl⟩) id

/-- **The tokens that a run reads**: the last of them ends where it is
said to end. -/
theorem Leads.taken (h : s.Leads root t) :
    t.taken = s.taken ∧ t.consumedTo = s.consumedTo
      ∨ ∃ last read, t.taken = last :: (read ++ s.taken)
        ∧ t.consumedTo = last.span.stop := by
  obtain ⟨hs, hsteps⟩ := h
  induction hsteps with
  | refl => exact .inl ⟨rfl, rfl⟩
  | @tail t u hst step ih =>
    have hsame {u : State} (htaken : u.taken = t.taken)
        (hcons : u.consumedTo = t.consumedTo) :
        u.taken = s.taken ∧ u.consumedTo = s.consumedTo
          ∨ ∃ last read, u.taken = last :: (read ++ s.taken)
            ∧ u.consumedTo = last.span.stop := by
      rw [htaken, hcons]
      exact ih
    cases step with
    | bump isEof =>
      obtain ⟨read, hread⟩ : ∃ read, t.taken = read ++ s.taken := by
        rcases ih with ⟨htaken, -⟩ | ⟨last, read, htaken, -⟩
        · exact ⟨[], htaken⟩
        · exact ⟨last :: read, htaken⟩
      refine .inr ⟨t.current, read, ?_, bump_consumedTo ..⟩
      rw [← hread]
      exact (List.cons.inj (bump_known root t)).2
    | rescan slash =>
      obtain ⟨v, hv, heq⟩ := rescanRegex_eq root t
      refine hsame ?_ ?_ <;> rw [heq, hv.eq]
    | report kind severity message span =>
      have h := (report_reported root kind severity message span t).sameCursor
      exact hsame h.taken_eq h.consumedTo_eq
    | record event => exact hsame rfl rfl

/-- Where a run has read up to another place, it has read a token. -/
theorem Leads.exists_read (h : s.Leads root t)
    (hpast : s.here < t.consumedTo) :
    ∃ last read, t.taken = last :: (read ++ s.taken)
      ∧ t.consumedTo = last.span.stop := by
  refine h.taken.resolve_left (fun ⟨_, hcons⟩ => ?_)
  have hle := h.good_start.consumedTo_le
  omega

end State

/-- **Where passing over tokens ends**: at a bracket that closes none of
those on the way, at the delimiter of the point, or with the text. -/
def TolerantPoint.StopsAt (point : TolerantPoint) (ctx : Context)
    (t : State) : Prop :=
  t.current.isEof = true ∨ t.current.kind.isCloser = true
    ∨ point.syncsAt t.current (t.newlineBefore && ctx.newlinesMatter) = true

/-- **What an error was mended with**: the node takes up all that has been
read since its point was entered, which is one token at least. -/
structure State.Mended (point : TolerantPoint) (ctx : Context) (s : State)
    (node : ErrorNode) (t : State) : Prop where
  /-- Tokens have been read, and the node ends with the last of them. -/
  read : ∃ last read, t.taken = last :: (read ++ s.taken)
    ∧ node.span = ⟨s.current.span.start, last.span.stop⟩
  /-- Another token would be passed over no more. -/
  stopsAt : point.StopsAt ctx t

namespace Parse

open ScriptTree.Action

/-! ## Passing over tokens -/

/-- What an action answers as a production it answers by itself. -/
theorem of_liftM_run {x : Action α} {a : α}
    (h : (liftM x : Parse α) ctx s = (.ok a, t)) : x ctx s = (a, t) := by
  have hrun : (liftM x : Parse α) ctx s = (.ok (x ctx s).1, (x ctx s).2) :=
    rfl
  rw [hrun] at h
  cases h
  rfl

theorem skipToTurn_run (point : TolerantPoint) (x : Nat × Bool)
    (ctx : Context) (s : State) :
    skipToTurn point x ctx s
      = if s.current.isEof then (.done x.2, s)
        else if x.1 = 0 && (s.current.kind.isCloser || (x.2 &&
          point.syncsAt s.current (s.newlineBefore && ctx.newlinesMatter)))
        then (.done x.2, s)
        else (.again (depthAfter s.current x.1, true), s.bump ctx) := by
  show (if _ then _ else _ : Action _) ctx s = _
  split
  · rfl
  show (if _ then _ else _ : Action _) ctx s = _
  split <;> rfl

/-- **What passing over tokens comes to.** Where nothing has been taken in
the end, nothing was there to take. -/
theorem skipToLoop_stops {point : TolerantPoint} {x : Nat × Bool}
    {r : Except ParseError Bool × State}
    (h : (skipToLoop point).Comes ctx x s r) :
    point.StopsAt ctx r.2 ∧ ∃ taken, r.1 = .ok taken
      ∧ (taken = false → x.2 = false ∧ r.2 = s
        ∧ (s.current.isEof = true ∨ s.current.kind.isCloser = true)) := by
  induction h with
  | @again x y s t r hturn _ ih =>
    obtain ⟨hstops, taken, hr, hidle⟩ := ih
    refine ⟨hstops, taken, hr, fun h => ?_⟩
    -- After a turn something has been taken.
    have hy : y.2 = true := by
      have hturn : skipToTurn point x ctx s = (.again y, t) :=
        of_liftM_run hturn
      rw [skipToTurn_run] at hturn
      split at hturn
      · cases hturn
      · split at hturn <;> cases hturn
        rfl
    rw [(hidle h).1] at hy
    exact nomatch hy
  | @done x b s t hturn =>
    have hturn : skipToTurn point x ctx s = (.done b, t) :=
      of_liftM_run hturn
    rw [skipToTurn_run] at hturn
    split at hturn
    · rename_i heof
      cases hturn
      exact ⟨.inl heof, _, rfl, fun h => ⟨h, rfl, .inl heof⟩⟩
    · split at hturn <;> cases hturn
      rename_i hstop
      simp only [Bool.and_eq_true, Bool.or_eq_true] at hstop
      refine ⟨.inr (hstop.2.imp_right And.right), _, rfl, fun h => ?_⟩
      refine ⟨h, rfl, .inr (hstop.2.resolve_right fun hsyncs => ?_)⟩
      rw [h] at hsyncs
      exact nomatch hsyncs.1
  | failure hturn => exact nomatch congrArg Prod.fst hturn

theorem skipTo_stops (hskip : (skipToLoop point).Proceeds root)
    (hctx : root.Within ctx) (hs : s.Good root) (taken : Bool) :
    ∃ answer t, skipTo point ctx.turns 0 taken ctx s = (answer, t)
      ∧ s.Leads root t ∧ point.StopsAt ctx t
      ∧ (answer = true → taken = true ∨ s.here < t.consumedTo)
      ∧ (answer = false → taken = false ∧ t = s
        ∧ (s.current.isEof = true ∨ s.current.kind.isCloser = true)) := by
  obtain ⟨hstops, answer, hanswer, hidle⟩ :=
    skipToLoop_stops (hskip.comes hctx hs (0, taken))
  obtain ⟨hleads, hpast⟩ :=
    skipTo_ensures point ctx.turns 0 taken hctx hs
  cases hanswer
  exact ⟨_, _, rfl, hleads, hstops, hpast, hidle⟩

/-! ## Mending -/

/-- What cannot be mended stands. -/
theorem mend_of_isTooDeep {point : TolerantPoint} {start : Nat}
    {error : ParseError} (hdeep : error.isTooDeep = true) :
    mend point start error ctx s = (.error error, s) := by
  have hstands :
      (!ctx.options.tolerant || s.aborted || error.isTooDeep) = true := by
    rw [hdeep, Bool.or_true]
  have hget : (get : Parse State) ctx s = (.ok s, s) := rfl
  unfold mend
  rw [bind_run, read_run]
  dsimp only
  rw [bind_run, hget]
  dsimp only
  rw [if_pos hstands]
  rfl

/-- **An error stands** where there is nothing to take. -/
theorem mend_of_skipTo {point : TolerantPoint} {start : Nat}
    {error : ParseError}
    (hskip : skipTo point ctx.turns 0 (s.here != start) ctx s = (false, t))
    (hgoes :
      (!ctx.options.tolerant || s.aborted || error.isTooDeep) = false) :
    mend point start error ctx s = (.error error, t) := by
  have hget : (get : Parse State) ctx s = (.ok s, s) := rfl
  have htaking : (liftM (skipTo point ctx.turns 0
      (s.current.span.start != start)) : Parse Bool) ctx s
      = (.ok false, t) := by
    show (Except.ok _, _) = _
    rw [show skipTo point ctx.turns 0
      (s.current.span.start != start) ctx s = (false, t) from hskip]
  unfold mend
  rw [bind_run, read_run]
  dsimp only
  rw [bind_run, hget]
  dsimp only
  rw [hgoes, if_neg Bool.false_ne_true, bind_run, htaking]
  rfl

/-- **An error at a point is mended, or it stands** and the point has not
been left. -/
theorem mend_mends_or_stays {point : TolerantPoint} {error : ParseError}
    (hskip : (skipToLoop point).Proceeds root) (hctx : root.Within ctx)
    (hst : s.Leads root t) (htolerant : root.options.tolerant = true)
    (hdeep : error.isTooDeep = false) :
    (∃ u, mend point s.here error ctx t = (.error error, u)
        ∧ s.SameCursor u)
      ∨ ∃ node u, mend point s.here error ctx t = (.ok node, u)
        ∧ s.Mended point ctx node u := by
  have htolerant' : ctx.options.tolerant = true := by
    rw [hctx.options_eq, htolerant]
  have haborted := hst.good.aborted_eq htolerant
  obtain ⟨answer, u, hrun, htu, hstops, hpast, hidle⟩ :=
    skipTo_stops hskip hctx hst.good (t.here != s.here)
  cases answer with
  | false =>
    obtain ⟨hmoved, rfl, hend⟩ := hidle rfl
    refine .inl ⟨u, mend_of_skipTo hrun ?_, ?_⟩
    · simp [htolerant', haborted, hdeep]
    -- A regular expression could have been taken.
    refine (hst.sameCursor_or_regex ?_).resolve_right fun hregex => ?_
    · simpa using hmoved
    · simp [Token.isEof, TokenKind.isCloser, hregex] at hend
  | true =>
    have hpast : s.here < u.consumedTo := by
      rcases hpast rfl with hmoved | hpast
      · have hne : t.here ≠ s.here := bne_iff_ne.1 hmoved
        have hplace := hst.still_or_past
        have hcons := htu.consumedTo_le
        omega
      · exact hst.past_trans htu (.inr hpast)
    obtain ⟨last, read, htaken, hstop⟩ := (hst.trans htu).exists_read hpast
    refine .inr ⟨_, _, mend_run htolerant' haborted hdeep hrun, ?_⟩
    have hsame := (State.reportError_reported ctx .recoverable error
      { u with
        events := u.events.push
          (.recovered point (u.spanFrom s.here) error) }).sameCursor
    refine ⟨⟨last, read, hsame.taken_eq.trans htaken, ?_⟩, ?_⟩
    · show u.spanFrom s.here = _
      rw [State.spanFrom_eq hpast, hstop]
      rfl
    · unfold TolerantPoint.StopsAt
      rw [hsame.current_eq, hsame.newlineBefore_eq]
      exact hstops

end Parse

open Parse in
/-- **What is read at a tolerant point**, over a grammar: all productions
that stand at one. -/
inductive TolerantPoint.Reads (g : Grammar) :
    TolerantPoint → (α : Type) → Parse α → Prop where
  /-- A statement that is an expression. -/
  | expressionStatement :
      Reads g .expressionStatement Expression (expression g)
  /-- An expression in parentheses. -/
  | parenthesized :
      Reads g .parenthesized Expression (expressionBefore g .rParen)
  /-- A name with what it is bound to. -/
  | varBinding : Reads g .varBinding Declarator (binding g)
  /-- The first part of the header of a loop. -/
  | headerInit : Reads g .forHeader Expression (expression g)
  /-- Another part of it, up to a mark. -/
  | headerPart (closer : Punctuator) :
      Reads g .forHeader Expression (expressionBefore g closer)
  /-- An element of an array. -/
  | element : Reads g .listElement Expression (assignment g)
  /-- A member of an object. -/
  | member : Reads g .listElement ObjectMember (objectMember g)
  /-- An argument of a call. -/
  | argument : Reads g .argument Expression (assignment g)
  /-- An index. -/
  | subscriptIndex :
      Reads g .subscriptIndex Expression (expressionBefore g .rBracket)
  /-- What stands in the place of a separator is refused right away. -/
  | separator (point : TolerantPoint) (α : Type) (expected : String) :
      Reads g point α (unexpected expected)

open Parse in
/-- What stands at a tolerant point takes steps only. -/
theorem TolerantPoint.Reads.leads {g : Grammar} {P : Expression → Prop}
    (hg : g.Sound root P) {point : TolerantPoint} {p : Parse α}
    (hp : point.Reads g α p) (hctx : root.Within ctx) (hs : s.Good root) :
    s.Leads root (p ctx s).2 := by
  cases hp with
  | expressionStatement | headerInit => exact (expression_ensures hg hctx hs).1
  | parenthesized | headerPart | subscriptIndex =>
    exact (expressionBefore_ensures hg _ hctx hs).1
  | varBinding => exact (binding_ensures hg hctx hs).1
  | element | argument => exact (assignment_ensures hg hctx hs).1
  | member => exact (objectMember_ensures hg hctx hs).1
  | separator => exact (unexpected_ensures (Q := fun _ _ => True) _ hctx hs).1

namespace Parse

/-- A separator that is missing is a production at a point that fails. -/
theorem missingSeparator_eq_tolerant [Mendable α] (point : TolerantPoint)
    (expected : String) :
    (missingSeparator point expected : Parse α)
      = tolerant point (unexpected expected) := by
  funext ctx s
  rw [tolerant_run]
  show _ = (Mendable.ofError <$> mend point s.here _) ctx s
  rw [map_eq_pure_bind]
  rfl

/-! ## At a tolerant point -/

/-- **A tolerant point mends its failure or leaves its place**, with
however many levels to go and wherever in a tolerant parse it is entered.
Where it fails, other than for the depth, the parse stands where the point
was entered. Where it does not fail although its production did, at least
one token has been read, and the answer takes up all that was. -/
theorem tolerant_mends_or_stays [Mendable α] {source : List Char}
    {options : Options} {table : OperatorTable} {n : Nat}
    {point : TolerantPoint} {p : Parse α}
    (hp : point.Reads (.levels n) α p)
    (hctx : (Context.ofSource source options table).Within ctx)
    (hs : s.Reached (.ofSource source options table))
    (htolerant : options.tolerant = true) :
    (∀ error t, tolerant point p ctx s = (.error error, t) →
        error.isTooDeep = false → s.SameCursor t)
      ∧ ∀ error a t, (p ctx s).1 = .error error →
        tolerant point p ctx s = (.ok a, t) →
        ∃ node, a = Mendable.ofError node ∧ s.Mended point ctx node t := by
  have hg := Grammar.levels_sound (.ofSource source options table) n
  have hskip := (hg.loopsProceed (Nat.lt_succ_self _)).skipTo point
  have hst := hp.leads hg hctx hs.good
  rw [tolerant_run]
  generalize p ctx s = r at hst
  obtain ⟨error | a, t⟩ := r
  · dsimp only at hst ⊢
    rw [map_eq_pure_bind, bind_run]
    cases hdeep : error.isTooDeep with
    | true =>
      rw [mend_of_isTooDeep hdeep]
      refine ⟨fun _ _ h hnot => ?_, fun _ _ _ _ h => nomatch h⟩
      cases h
      rw [hdeep] at hnot
      exact nomatch hnot
    | false =>
      rcases mend_mends_or_stays hskip hctx hst htolerant hdeep with
        ⟨u, hrun, hsame⟩ | ⟨node, u, hrun, hmended⟩
      · rw [hrun]
        refine ⟨fun _ _ h _ => ?_, fun _ _ _ _ h => nomatch h⟩
        cases h
        exact hsame
      · rw [hrun]
        refine ⟨fun _ _ h => (nomatch h), fun _ _ _ _ h => ?_⟩
        cases h
        exact ⟨node, rfl, hmended⟩
  · exact ⟨fun _ _ h => (nomatch congrArg Prod.fst h),
      fun _ _ _ h => (nomatch h)⟩

/-- A statement cannot begin with `=`, and is mended up to the `;`. Nor can it
begin with a closing bracket, which is left where it is. -/
theorem tolerant_mends_assignment :
    (∃ node t, tolerant .expressionStatement (expression (.levels 3))
        (.ofSource "= b; c".toList .standard .standard)
        (.initial (.ofSource "= b; c".toList .standard .standard))
          = (.ok (.error node), t)
      ∧ (State.initial (.ofSource "= b; c".toList .standard .standard)).Mended
        .expressionStatement (.ofSource "= b; c".toList .standard .standard)
        node t)
      ∧ ∃ error t, tolerant .expressionStatement (expression (.levels 3))
          (.ofSource ") b".toList .standard .standard)
          (.initial (.ofSource ") b".toList .standard .standard))
            = (.error error, t)
        ∧ error.isTooDeep = false
        ∧ (State.initial (.ofSource ") b".toList .standard
          .standard)).SameCursor t := by
  constructor
  · have hfails : ∃ error, (expression (.levels 3)
        (.ofSource "= b; c".toList .standard .standard)
        (.initial (.ofSource "= b; c".toList .standard .standard))).1
          = .error error := Except.exists_error (by decide +kernel)
    have hmends : ∃ a, (tolerant .expressionStatement
        (expression (.levels 3))
        (.ofSource "= b; c".toList .standard .standard)
        (.initial (.ofSource "= b; c".toList .standard .standard))).1
          = .ok a := Except.exists_ok (by decide +kernel)
    obtain ⟨error, hfails⟩ := hfails
    obtain ⟨a, hmends⟩ := hmends
    obtain ⟨node, rfl, hmended⟩ := (tolerant_mends_or_stays
      (.expressionStatement (g := .levels 3)) (.refl (.ofSource _ _ _))
      .refl rfl).2 error a _ hfails (Prod.ext hmends rfl)
    exact ⟨node, _, Prod.ext hmends rfl, hmended⟩
  · have hstands : ∃ error, (tolerant .expressionStatement
        (expression (.levels 3))
        (.ofSource ") b".toList .standard .standard)
        (.initial (.ofSource ") b".toList .standard .standard))).1
          = .error error := Except.exists_error (by decide +kernel)
    obtain ⟨error, hstands⟩ := hstands
    have hnot : error.isTooDeep = false := by
      have hall : (tolerant .expressionStatement (expression (.levels 3))
          (.ofSource ") b".toList .standard .standard)
          (.initial (.ofSource ") b".toList .standard .standard))).1.casesOn
            ParseError.isTooDeep (fun _ => true) = false := by
        decide +kernel
      rwa [hstands] at hall
    have hsame := (tolerant_mends_or_stays
      (.expressionStatement (g := .levels 3)) (.refl (.ofSource _ _ _))
      .refl rfl).1 error _ (Prod.ext hstands rfl) hnot
    exact ⟨error, _, Prod.ext hstands rfl, hnot, hsame⟩

end Parse

end ScriptTree
