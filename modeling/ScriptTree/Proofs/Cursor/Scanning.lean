import ScriptTree.Proofs.Cursor.Basic

/-!
# A scan is never at fault

A cursor stands where a scanner does if it has the same text and position
and has taken the same notes (`Scanner.cursor`). From there each scan is
run, and what it comes to is stated with the scanner: so many characters
further on (`Scanner.past`), with nothing gone wrong. All that is asked of
the scanner is that it stands in its text and that the text is not too
long (`Scanner.Sound`); that is true further on as well.

A scan looks at one character at a time, while the lexeme it reads is
counted by a function on lists. Three relations say that a loop reads as
much as such a function counts. They differ in what happens at the end of
a text that has no end of the lexeme in it: a string ends there
(`Counts`), a template or comment goes back to the end of its first line
(`Closes`), and a regular expression is followed by its flags or not
(`Bodies`). Each has a rule for one turn of the loop, and that is what the
inductions on the turns use.
-/

namespace ScriptTree

/-- **A slice between two cuts** is one. -/
theorem sliceOrFail_append (a b c : List Char) :
    sliceOrFail (a ++ (b ++ c)) ⟨byteLength a, byteLength a + byteLength b⟩
      = .ok b := by
  have hstop : IsCut (a ++ (b ++ c)) (byteLength a + byteLength b) := by
    rw [← List.append_assoc, ← byteLength_append]
    exact isCut_append _ _
  rw [sliceOrFail, if_pos ⟨Nat.le_add_right _ _, isCut_append _ _, hstop⟩,
    Span.slice_append]

namespace Scanner

/-- What a cursor keeps of a scanner. -/
def cursor (s : Scanner) : Cursor :=
  ⟨s.source, s.position, s.previous, s.breakEmitted, s.finished⟩

/-- **A scanner in a text** that is short enough to be counted. -/
structure Sound (s : Scanner) : Prop where
  /-- It stands behind a front of the text. -/
  at_front : ∃ before, s.At before
  /-- The text is short. -/
  short : byteLength s.source < UInt32.size - 1

variable {s : Scanner}

theorem Sound.past (hs : s.Sound) (n : Nat) : (s.past n).Sound := by
  obtain ⟨before, hat⟩ := hs.at_front
  exact ⟨⟨_, take_at hat .eof n none⟩, hs.short⟩

end Scanner

namespace Scan

open Scanner

/-- A scan goes on from where its first step leaves the cursor. -/
theorem bind_run {α β : Type} {x : Scan α} {f : α → Scan β} {c c' : Cursor}
    {a : α} (h : x.run c = .ok (a, c')) :
    (x >>= f).run c = (f a).run c' := by
  rw [StateT.run_bind, h]
  rfl

theorem get_run (c : Cursor) : (get : Scan Cursor).run c = .ok (c, c) := rfl

theorem lift_run {α : Type} {e : Except Fault α} {a : α} (h : e = .ok a)
    (c : Cursor) : (liftM e : Scan α).run c = .ok (a, c) := by
  rw [h]
  rfl

/-- **A loop with turns enough for the whole text** has enough for what is
left of it. -/
theorem exists_turns {s : Scanner} (hs : s.Sound) :
    ∃ turns, s.rest.length < turns ∧ ∀ {α : Type} (loop : Nat → Scan α),
      (forText loop).run s.cursor = (loop turns).run s.cursor := by
  obtain ⟨before, hat⟩ := hs.at_front
  refine ⟨s.source.length + 1, ?_, fun _ => rfl⟩
  rw [hat.source_eq, List.length_append]
  omega

variable {s : Scanner} (hs : s.Sound)

/-! ## Steps -/

include hs

theorem ahead_run : ahead.run s.cursor = .ok (s.rest, s.cursor) := by
  obtain ⟨before, hat⟩ := hs.at_front
  have hslice : sliceOrFail s.cursor.source
      ⟨s.cursor.position.offset, byteLength s.cursor.source⟩
      = .ok s.rest := by
    have h := sliceOrFail_append before s.rest []
    rwa [List.append_nil, ← byteLength_append, ← hat.source_eq,
      ← Position.after_offset before, ← hat.position_eq] at h
  show (sliceOrFail _ _ >>= fun text => _) = _
  rw [hslice]
  rfl

theorem peek_run : peek.run s.cursor = .ok (s.rest.head?, s.cursor) :=
  bind_run (ahead_run hs)

theorem peekNext_run :
    peekNext.run s.cursor = .ok (s.rest.tail.head?, s.cursor) :=
  bind_run (ahead_run hs)

theorem advance_run {c : Char} {cs : List Char} (hrest : s.rest = c :: cs) :
    advance.run s.cursor = .ok (c, (s.past 1).cursor) := by
  obtain ⟨before, hat⟩ := hs.at_front
  have hsource : s.source = before ++ [c] ++ cs := by
    rw [hat.source_eq, hrest, List.append_assoc, List.singleton_append]
  have hposition : (s.cursor.position.past c).orFail
      = .ok (s.past 1).position := by
    have hpast : s.cursor.position.past c = .counted (before ++ [c]) := by
      rw [Position.counted_concat, ← Position.after_eq_counted hat.source_eq
        hs.short, ← hat.position_eq]
      rfl
    have hahead : (s.past 1).position = .counted (before ++ [c]) := by
      rw [← Position.after_eq_counted hsource hs.short,
        Position.after_concat, ← hat.position_eq]
      simp [Scanner.past, hrest]
    rw [hpast, hahead]
    exact if_pos (Position.counted_fits hsource hs.short)
  unfold advance
  rw [bind_run (peek_run hs), hrest, List.head?_cons]
  dsimp only
  rw [bind_run (get_run _), bind_run (lift_run hposition _)]
  rfl

/-! What follows a look or a step, in the two situations there are. -/

section Bind

variable {α : Type} {c : Char} {cs : List Char}

theorem peek_bind (hrest : s.rest = c :: cs) {f : Option Char → Scan α} :
    (peek >>= f).run s.cursor = (f (some c)).run s.cursor := by
  rw [bind_run (peek_run hs), hrest, List.head?_cons]

theorem peek_bind_nil (hrest : s.rest = []) {f : Option Char → Scan α} :
    (peek >>= f).run s.cursor = (f none).run s.cursor := by
  rw [bind_run (peek_run hs), hrest, List.head?_nil]

theorem advance_bind (hrest : s.rest = c :: cs) {f : Unit → Scan α} :
    ((discard advance : Scan Unit) >>= f).run s.cursor
      = (f ()).run (s.past 1).cursor := by
  refine bind_run (a := ()) ?_
  show (advance.run s.cursor >>= fun _ => _) = _
  rw [advance_run hs hrest]
  rfl

end Bind

/-- A character that is expected and stands there is passed over. -/
theorem matchChar_run_eq {c : Char} {cs : List Char}
    (hrest : s.rest = c :: cs) :
    (matchChar c).run s.cursor = .ok (true, (s.past 1).cursor) := by
  unfold matchChar
  rw [peek_bind hs hrest, if_pos rfl, advance_bind hs hrest]
  rfl

/-- Where another one stands nothing is done. -/
theorem matchChar_run_ne {c : Char} (hne : s.rest.head? ≠ some c) :
    (matchChar c).run s.cursor = .ok (false, s.cursor) := by
  unfold matchChar
  rw [bind_run (peek_run hs), if_neg hne]
  rfl

theorem skipWhile_run (p : Char → Bool) {turns : Nat}
    (hturns : s.rest.length < turns) :
    (skipWhile p turns).run s.cursor
      = .ok ((), (s.past (s.rest.takeWhile p).length).cursor) := by
  induction turns generalizing s with
  | zero => exact absurd hturns (Nat.not_lt_zero _)
  | succ turns ih =>
    unfold skipWhile
    cases hrest : s.rest with
    | nil =>
      rw [peek_bind_nil hs hrest]
      rfl
    | cons c cs =>
      have hlength : (s.past 1).rest.length < turns := by
        simp [hrest] at hturns ⊢
        omega
      rw [peek_bind hs hrest, Option.any_some]
      by_cases hc : p c = true
      · rw [if_pos hc, advance_bind hs hrest, ih (hs.past 1) hlength,
          past_past, past_rest, hrest, List.takeWhile_cons_of_pos hc,
          List.length_cons]
        simp [Nat.add_comm]
      · rw [if_neg hc, List.takeWhile_cons_of_neg hc]
        rfl

theorem forText_skipWhile_run (p : Char → Bool) :
    (forText (skipWhile p)).run s.cursor
      = .ok ((), (s.past (s.rest.takeWhile p).length).cursor) := by
  obtain ⟨turns, hturns, hrun⟩ := exists_turns hs
  rw [hrun]
  exact skipWhile_run hs p hturns

/-! ## Loops -/

/-- **A loop reads as much as an extent counts** from a count of `n` on. -/
def Counts (x : Scan (Option LexError)) (s : Scanner) (n : Nat)
    (extent : Nat × Option LexError) : Prop :=
  ∃ k, extent.1 = n + k
    ∧ x.run s.cursor = .ok (extent.2, (s.past k).cursor)

omit hs in
theorem Counts.done {x : Scan (Option LexError)} {n : Nat}
    {e : Option LexError} (m : Nat)
    (hx : x.run s.cursor = .ok (e, (s.past m).cursor)) :
    Counts x s n (n + m, e) := ⟨m, rfl, hx⟩

omit hs in
theorem Counts.step {x y : Scan (Option LexError)} {n : Nat}
    {extent : Nat × Option LexError} (m : Nat)
    (hx : x.run s.cursor = y.run (s.past m).cursor)
    (hy : Counts y (s.past m) (n + m) extent) : Counts x s n extent := by
  obtain ⟨k, hk, hrun⟩ := hy
  refine ⟨m + k, by omega, ?_⟩
  rw [hx, hrun, past_past]

theorem string_counts {quote : Char} (hescape : quote ≠ '\\')
    {turns : Nat} (hturns : s.rest.length < turns) (n : Nat) :
    Counts (string quote turns) s n (stringExtent quote s.rest n) := by
  induction turns generalizing s n with
  | zero => exact absurd hturns (Nat.not_lt_zero _)
  | succ turns ih =>
    cases hrest : s.rest with
    | nil =>
      refine .done 0 ?_
      rw [string, peek_bind_nil hs hrest]
      rfl
    | cons c cs =>
      rw [hrest, List.length_cons] at hturns
      by_cases hline : c = '\n'
      · subst hline
        refine .done 0 ?_
        rw [string, peek_bind hs hrest]
        rfl
      have hturns' : (s.past 1).rest.length < turns := by
        simp [hrest]
        omega
      by_cases hback : c = '\\'
      · subst hback
        have hstep : (string quote (turns + 1)).run s.cursor
            = ((peek >>= fun next? => if next?.isSome = true then
                (discard advance >>= fun _ => string quote turns)
              else string quote turns) : Scan _).run (s.past 1).cursor := by
          rw [string, peek_bind hs hrest]
          exact advance_bind hs hrest
        cases cs with
        | nil =>
          have hrest' : (s.past 1).rest = [] := by simp [hrest]
          refine .step 1 (hstep.trans (peek_bind_nil (hs.past 1) hrest')) ?_
          rw [stringExtent, if_neg hescape.symm]
          · simpa [hrest] using ih (hs.past 1) hturns' (n + 1)
          · simp
          · simp
        | cons d cs =>
          have hrest' : (s.past 1).rest = d :: cs := by simp [hrest]
          refine .step (y := string quote turns) 2 ?_ ?_
          · rw [hstep, peek_bind (hs.past 1) hrest',
              if_pos Option.isSome_some, advance_bind (hs.past 1) hrest',
              past_past]
          · have hturns'' : (s.past 2).rest.length < turns := by
              simp [hrest] at hturns' ⊢
              omega
            rw [stringExtent]
            simpa [hrest] using ih (hs.past 2) hturns'' (n + 2)
      · have hstep : (string quote (turns + 1)).run s.cursor
            = (if c = quote then pure none else string quote turns : Scan _).run
              (s.past 1).cursor := by
          rw [string, peek_bind hs hrest]
          dsimp only
          rw [if_neg hline, if_neg hback]
          exact advance_bind hs hrest
        rw [stringExtent]
        · split
          · refine .done 1 ?_
            rw [hstep, if_pos ‹_›]
            rfl
          · have hrest' := ih (hs.past 1) hturns' (n + 1)
            refine .step 1 ?_ (by simpa [hrest] using hrest')
            rw [hstep, if_neg ‹_›]
        · exact hline
        · intro _ _ h
          exact absurd h hback

/-- Where the first line ends, given where it has ended if it has. -/
def lineEnd (s : Scanner) (first? : Option Position) : Position :=
  first?.getD (s.past (lineExtent s.rest)).position

omit hs in
/-- A character more does not change where the first line ends. -/
theorem firstLineEnd_bind {α : Type} {c : Char} {cs : List Char}
    (hrest : s.rest = c :: cs) (first? : Option Position)
    {f : Option Position → Scan α} :
    ∃ next?, lineEnd (s.past 1) next? = lineEnd s first?
      ∧ (firstLineEnd first? c >>= f).run s.cursor
        = (f next?).run s.cursor := by
  by_cases hline : c = '\n'
  · subst hline
    cases first? with
    | none =>
      refine ⟨some s.position, ?_, rfl⟩
      simp [lineEnd, lineExtent, hrest]
    | some p => exact ⟨some p, rfl, rfl⟩
  · refine ⟨first?, ?_, ?_⟩
    · have hextent : lineExtent (c :: cs) = lineExtent cs + 1 := by
        simp [lineExtent, hline]
      simp [lineEnd, hrest, hextent, Nat.add_comm]
    · simp [firstLineEnd, hline]

/-- **A loop reads as much as an extent counts** from a count of `n` on,
or goes back to where the first line ends. -/
def Closes (x : Scan (Option LexError)) (s : Scanner)
    (first? : Option Position) (error : LexError) (n : Nat) :
    Option Nat → Prop
  | some m => ∃ k, m = n + k ∧ x.run s.cursor = .ok (none, (s.past k).cursor)
  | none => x.run s.cursor
      = .ok (some error, { s.cursor with position := lineEnd s first? })

omit hs in
theorem Closes.step {x y : Scan (Option LexError)} {n : Nat}
    {first? next? : Option Position} {error : LexError}
    {extent? : Option Nat} (m : Nat)
    (hx : x.run s.cursor = y.run (s.past m).cursor)
    (hline : lineEnd (s.past m) next? = lineEnd s first?)
    (hy : Closes y (s.past m) next? error (n + m) extent?) :
    Closes x s first? error n extent? := by
  cases extent? with
  | none =>
    show x.run s.cursor = _
    rw [hx, ← hline]
    exact hy
  | some l =>
    obtain ⟨k, hk, hrun⟩ := hy
    refine ⟨m + k, by omega, ?_⟩
    rw [hx, hrun, past_past]

omit hs in
/-- At the end of the text the loop goes back. -/
theorem rewindTo_closes {x : Scan (Option LexError)}
    {first? : Option Position} {error : LexError} {n : Nat}
    (hrest : s.rest = [])
    (hx : x.run s.cursor = (rewindTo first? >>= fun _ =>
      (pure (some error) : Scan _)).run s.cursor) :
    Closes x s first? error n none := by
  show x.run s.cursor = _
  rw [hx]
  cases first? with
  | none =>
    have hend : lineEnd s none = s.position := by
      simp [lineEnd, lineExtent, hrest]
    rw [hend]
    rfl
  | some p => rfl

/-- Behind a backslash the next character is passed unseen. -/
theorem template_backslash (turns : Nat) (first? : Option Position)
    {cs : List Char} (hrest : s.rest = '\\' :: cs) :
    (template (turns + 1) first?).run s.cursor
      = ((peek >>= fun
          | none => template turns first?
          | some escaped => firstLineEnd first? escaped >>=
            fun first? => discard advance >>=
              fun _ => template turns first?) : Scan _).run
        (s.past 1).cursor := by
  rw [template, peek_bind hs hrest]
  exact advance_bind hs hrest

theorem template_closes {turns : Nat} (hturns : s.rest.length < turns)
    (first? : Option Position) (n : Nat) :
    Closes (template turns first?) s first? .unterminatedTemplate n
      (templateExtent? s.rest n) := by
  induction turns generalizing s first? n with
  | zero => exact absurd hturns (Nat.not_lt_zero _)
  | succ turns ih =>
    cases hrest : s.rest with
    | nil =>
      refine rewindTo_closes hrest ?_
      rw [template, peek_bind_nil hs hrest]
    | cons c cs =>
      have hturns' : (s.past 1).rest.length < turns := by
        simp [hrest] at hturns ⊢
        omega
      by_cases hquote : c = '\x60'
      · subst hquote
        refine ⟨1, rfl, ?_⟩
        rw [template, peek_bind hs hrest]
        exact advance_bind hs hrest
      by_cases hback : c = '\\'
      · subst hback
        have hstep := template_backslash hs turns first? hrest
        have hline : lineEnd (s.past 1) first? = lineEnd s first? := by
          simp [lineEnd, hrest, lineExtent, Nat.add_comm]
        cases cs with
        | nil =>
          have hrest' : (s.past 1).rest = [] := by simp [hrest]
          refine .step (y := template turns first?) 1
            (hstep.trans (peek_bind_nil (hs.past 1) hrest')) hline ?_
          rw [templateExtent?]
          · simpa [hrest] using ih (hs.past 1) hturns' first? (n + 1)
          · simp
          · simp
        | cons d cs =>
          have hrest' : (s.past 1).rest = d :: cs := by simp [hrest]
          have hturns'' : (s.past 2).rest.length < turns := by
            simp [hrest] at hturns' ⊢
            omega
          obtain ⟨next?, hline', hfirst⟩ := firstLineEnd_bind hrest' first?
            (f := fun first? => discard advance >>=
              fun _ => template turns first?)
          rw [hline, past_past] at hline'
          refine .step (y := template turns next?) 2 ?_ hline' ?_
          · rw [hstep, peek_bind (hs.past 1) hrest']
            dsimp only
            rw [hfirst, advance_bind (hs.past 1) hrest', past_past]
          · rw [templateExtent?]
            simpa [hrest] using ih (hs.past 2) hturns'' next? (n + 2)
      · obtain ⟨next?, hline, hfirst⟩ := firstLineEnd_bind hrest first?
          (f := fun first? => discard advance >>=
            fun _ => template turns first?)
        rw [templateExtent?]
        · have hnext := ih (hs.past 1) hturns' next? (n + 1)
          refine .step (y := template turns next?) 1 ?_ hline
            (by simpa [hrest] using hnext)
          rw [template, peek_bind hs hrest]
          dsimp only
          rw [if_neg hquote, if_neg hback, hfirst, advance_bind hs hrest]
        · exact hquote
        · intro _ _ h
          exact absurd h hback

theorem blockComment_closes {turns : Nat} (hturns : s.rest.length < turns)
    (first? : Option Position) (n : Nat) :
    Closes (blockComment turns first?) s first? .unterminatedComment n
      (commentExtent? s.rest n) := by
  induction turns generalizing s first? n with
  | zero => exact absurd hturns (Nat.not_lt_zero _)
  | succ turns ih =>
    cases hrest : s.rest with
    | nil =>
      refine rewindTo_closes hrest ?_
      rw [blockComment, peek_bind_nil hs hrest]
    | cons c cs =>
      have hturns' : (s.past 1).rest.length < turns := by
        simp [hrest] at hturns ⊢
        omega
      have hnext : peekNext.run s.cursor = .ok (cs.head?, s.cursor) := by
        rw [peekNext_run hs, hrest, List.tail_cons]
      by_cases hclose : c = '*' ∧ cs.head? = some '/'
      · obtain ⟨rfl, hcs⟩ := hclose
        obtain ⟨cs, rfl⟩ := List.head?_eq_some_iff.1 hcs
        have hrest' : (s.past 1).rest = '/' :: cs := by simp [hrest]
        refine ⟨2, rfl, ?_⟩
        rw [blockComment, peek_bind hs hrest, bind_run hnext]
        refine (advance_bind hs hrest).trans ?_
        rw [advance_bind (hs.past 1) hrest', past_past]
        rfl
      · obtain ⟨next?, hline, hfirst⟩ := firstLineEnd_bind hrest first?
          (f := fun first? =>
            discard advance >>= fun _ => blockComment turns first?)
        rw [commentExtent?]
        · refine .step (y := blockComment turns next?) 1 ?_ hline
            (by simpa [hrest] using ih (hs.past 1) hturns' next? (n + 1))
          rw [blockComment, peek_bind hs hrest]
          dsimp only
          rw [bind_run hnext, if_neg (by simpa using hclose), hfirst,
            advance_bind hs hrest]
        · rintro cs' hc rfl
          exact hclose ⟨hc, rfl⟩

/-- What a regular expression counts, given where its body has ended and
whether that is its end. -/
def bodyExtent (s : Scanner) (n k : Nat) :
    Option LexError → Nat × Option LexError
  | some error => (n + k, some error)
  | none =>
    (n + k + ((s.past k).rest.takeWhile Char.isLower).length, none)

/-- **The body of a regular expression** reads as much as the extent
counts, the flags aside. -/
def Bodies (x : Scan (Option LexError)) (s : Scanner) (n : Nat)
    (extent : Nat × Option LexError) : Prop :=
  ∃ k error?, extent = bodyExtent s n k error?
    ∧ x.run s.cursor = .ok (error?, (s.past k).cursor)

omit hs in
theorem Bodies.step {x y : Scan (Option LexError)} {n : Nat}
    {extent : Nat × Option LexError} (m : Nat)
    (hx : x.run s.cursor = y.run (s.past m).cursor)
    (hy : Bodies y (s.past m) (n + m) extent) : Bodies x s n extent := by
  obtain ⟨k, error?, hextent, hrun⟩ := hy
  refine ⟨m + k, error?, ?_, ?_⟩
  · rw [hextent]
    cases error? <;> simp [bodyExtent, Nat.add_assoc]
  · rw [hx, hrun, past_past]

theorem regexBody_bodies {turns : Nat} (hturns : s.rest.length < turns)
    (inClass : Bool) (n : Nat) :
    Bodies (regexBody turns inClass) s n (regexExtent inClass s.rest n) := by
  induction turns generalizing s inClass n with
  | zero => exact absurd hturns (Nat.not_lt_zero _)
  | succ turns ih =>
    cases hrest : s.rest with
    | nil =>
      refine ⟨0, some .unterminatedRegex, rfl, ?_⟩
      rw [regexBody, peek_bind_nil hs hrest]
      rfl
    | cons c cs =>
      have hturns' : (s.past 1).rest.length < turns := by
        simp [hrest] at hturns ⊢
        omega
      have hgo (inClass : Bool) : Bodies (regexBody turns inClass)
          (s.past 1) (n + 1) (regexExtent inClass cs (n + 1)) := by
        simpa [hrest] using ih (hs.past 1) hturns' inClass (n + 1)
      by_cases hline : c = '\n'
      · subst hline
        refine ⟨0, some .unterminatedRegex, by simp [regexExtent, bodyExtent],
          ?_⟩
        rw [regexBody, peek_bind hs hrest]
        rfl
      by_cases hback : c = '\\'
      · subst hback
        have hturn : (regexBody (turns + 1) inClass).run s.cursor
            = ((peek >>= fun next? => if next?.any (· ≠ '\n') = true then
                (discard advance >>= fun _ => regexBody turns inClass)
              else regexBody turns inClass) : Scan _).run
              (s.past 1).cursor := by
          rw [regexBody, peek_bind hs hrest]
          exact advance_bind hs hrest
        cases cs with
        | nil =>
          have hrest' : (s.past 1).rest = [] := by simp [hrest]
          refine .step (y := regexBody turns inClass) 1
            (hturn.trans (peek_bind_nil (hs.past 1) hrest')) ?_
          simpa [regexExtent] using hgo inClass
        | cons d cs =>
          have hrest' : (s.past 1).rest = d :: cs := by simp [hrest]
          rw [peek_bind (hs.past 1) hrest', Option.any_some] at hturn
          rw [regexExtent]
          by_cases hd : d = '\n'
          · subst hd
            refine .step (y := regexBody turns inClass) 1 hturn ?_
            simpa [regexExtent] using hgo inClass
          · rw [if_neg hd]
            rw [if_pos (by simpa using hd), advance_bind (hs.past 1) hrest',
              past_past] at hturn
            have hturns'' : (s.past 2).rest.length < turns := by
              simp [hrest] at hturns' ⊢
              omega
            refine .step 2 hturn ?_
            simpa [hrest] using ih (hs.past 2) hturns'' inClass (n + 2)
      by_cases hopen : c = '['
      · subst hopen
        rw [regexExtent]
        refine .step (y := regexBody turns true) 1 ?_ (hgo true)
        rw [regexBody, peek_bind hs hrest]
        exact advance_bind hs hrest
      by_cases hclose : c = ']'
      · subst hclose
        rw [regexExtent]
        refine .step (y := regexBody turns false) 1 ?_ (hgo false)
        rw [regexBody, peek_bind hs hrest]
        exact advance_bind hs hrest
      have hturn : (regexBody (turns + 1) inClass).run s.cursor
          = (if c = '/' && !inClass then
              (discard advance >>= fun _ => pure none)
            else (discard advance >>= fun _ => regexBody turns inClass)
              : Scan _).run s.cursor := by
        rw [regexBody, peek_bind hs hrest]
        dsimp only
        rw [if_neg hline, if_neg hback, if_neg hopen, if_neg hclose]
      by_cases hend : c = '/' && !inClass
      · rw [if_pos hend, advance_bind hs hrest] at hturn
        simp only [Bool.and_eq_true, decide_eq_true_eq,
          Bool.not_eq_true'] at hend
        obtain ⟨rfl, rfl⟩ := hend
        exact ⟨1, none, by simp [regexExtent, bodyExtent, hrest], hturn⟩
      · rw [if_neg hend, advance_bind hs hrest] at hturn
        have hextent : regexExtent inClass (c :: cs) n
            = regexExtent inClass cs (n + 1) := by
          rw [regexExtent]
          · exact hline
          · intro _ _ h
            exact absurd h hback
          · exact hopen
          · exact hclose
          · rintro rfl rfl
            exact hend rfl
        rw [hextent]
        exact .step 1 hturn (hgo inClass)

/-! ## Whole tokens -/

theorem regex_run :
    regex.run s.cursor = .ok ((Lexeme.regex s.rest).error,
      (s.past (Lexeme.regex s.rest).extent).cursor) := by
  obtain ⟨turns, hturns, hforText⟩ := exists_turns hs
  obtain ⟨k, error?, hextent, hbody⟩ := regexBody_bodies hs hturns false 0
  have hrun := (hforText (regexBody · false)).trans hbody
  unfold regex Lexeme.regex
  rw [bind_run hrun, hextent]
  cases error? with
  | some error => simp [bodyExtent]; rfl
  | none =>
    dsimp only
    rw [bind_run (forText_skipWhile_run (hs.past k) _), past_past]
    simp [bodyExtent]
    rfl

omit hs in
/-- A hexadecimal mark is known by two characters. -/
theorem hexExtent?_eq (cs : List Char) :
    hexExtent? cs = if cs.head?.any (fun x => x = 'x' || x = 'X')
        && cs.tail.head?.any isHexDigit then
      some (1 + (cs.tail.takeWhile isHexDigit).length)
    else none := by
  obtain _ | ⟨x, _ | ⟨d, cs⟩⟩ := cs <;> simp [hexExtent?]

theorem decimal_run :
    (forText (skipWhile Char.isDigit) >>= fun _ => peek >>= fun next? =>
        if next? = some '.' then
          discard advance >>= fun _ => forText (skipWhile Char.isDigit)
        else pure () : Scan Unit).run s.cursor
      = .ok ((), (s.past (decimalExtent s.rest)).cursor) := by
  rw [bind_run (forText_skipWhile_run hs _)]
  unfold decimalExtent
  dsimp only
  generalize (s.rest.takeWhile Char.isDigit).length = whole
  have hwhole := hs.past whole
  have hpast : (s.past whole).rest = s.rest.drop whole := rfl
  cases hrest : s.rest.drop whole with
  | nil =>
    rw [peek_bind_nil hwhole (hpast.trans hrest), if_neg (by simp)]
    rfl
  | cons c cs =>
    rw [peek_bind hwhole (hpast.trans hrest)]
    by_cases hc : c = '.'
    · subst hc
      rw [if_pos rfl, advance_bind hwhole (hpast.trans hrest),
        forText_skipWhile_run (hwhole.past 1), past_past, past_past,
        past_rest, hpast, hrest]
      simp [Nat.add_assoc]
    · rw [if_neg (by simpa using hc)]
      split
      · rename_i h
        exact absurd (List.cons.inj h).1 hc
      · rfl

theorem number_run (first : Char) :
    (number first).run s.cursor
      = .ok ((), (s.past (numberExtent first s.rest)).cursor) := by
  unfold number numberExtent
  rw [bind_run (peek_run hs), bind_run (peekNext_run hs), hexExtent?_eq]
  by_cases hhex : (first = '0'
      && s.rest.head?.any (fun x => x = 'x' || x = 'X')
      && s.rest.tail.head?.any isHexDigit) = true
  · rw [if_pos hhex]
    simp only [Bool.and_eq_true, decide_eq_true_eq] at hhex
    obtain ⟨⟨rfl, hx⟩, hd⟩ := hhex
    cases hrest : s.rest with
    | nil => simp [hrest] at hx
    | cons x cs =>
      rw [hrest] at hx hd
      rw [advance_bind hs hrest, forText_skipWhile_run (hs.past 1),
        past_past, past_rest, hrest, if_pos rfl,
        if_pos (by simp only [hx, hd, Bool.and_self])]
      rfl
  · rw [if_neg hhex]
    have hnone : (if first = '0' then
        if s.rest.head?.any (fun x => x = 'x' || x = 'X')
            && s.rest.tail.head?.any isHexDigit then
          some (1 + (s.rest.tail.takeWhile isHexDigit).length)
        else none
      else none) = none := by
      split
      · rw [if_neg]
        simp_all
      · rfl
    rw [hnone]
    exact decimal_run hs

/-- **A slice of the text** from one place of a scan to another. -/
theorem slice_run (n : Nat) :
    sliceOrFail (s.past n).cursor.source
      ⟨s.position.offset, (s.past n).cursor.position.offset⟩
      = .ok (s.rest.take n) := by
  obtain ⟨before, hat⟩ := hs.at_front
  have h := sliceOrFail_append before (s.rest.take n) (s.rest.drop n)
  rw [List.take_append_drop, ← hat.source_eq] at h
  have hstop : (s.past n).cursor.position.offset
      = byteLength before + byteLength (s.rest.take n) := by
    show (s.position.advanceBy _).offset = _
    rw [Position.advanceBy_offset, hat.position_eq, Position.after_offset]
  rw [hstop, hat.position_eq, Position.after_offset]
  exact h

end Scan

end ScriptTree
