import ScriptTree.Proofs.Cursor.Reading

/-!
# Sessions with a cursor

The operations of a scanner, run with a cursor: passing the blanks and
line breaks before a token, reading the token, reading one again, and
reading on to the end. Each comes to what the scanner comes to, without a
fault. So does any number of requests (`Scan.session_run`), for a session
stays in its text and hands out pieces of it, whichever way it is sent.
-/

namespace ScriptTree

namespace Scanner

variable {s : Scanner} {c : Char} {cs : List Char}

theorem settle_past_blanks :
    (s.past (s.rest.takeWhile isBlank).length).settle = s.settle := by
  induction hrest : s.rest generalizing s with
  | nil => rfl
  | cons c cs ih =>
    by_cases hc : isBlank c = true
    · rw [List.takeWhile_cons_of_pos hc, List.length_cons, Nat.add_comm,
        ← past_past]
      have hrest' : (s.past 1).rest = cs := by simp [hrest]
      rw [ih hrest', settle_past_one hrest (by rw [hc, Bool.true_or])]
    · rw [List.takeWhile_cons_of_neg hc]
      rfl

/-- To read a token does not end the stream. -/
theorem next_finished (s : Scanner) : s.next.2.finished = s.finished := by
  unfold next read
  split
  · rfl
  · rfl
  · dsimp only
    unfold remember
    split <;> rfl

end Scanner

namespace Scan

open Scanner

variable {s : Scanner} {c : Char} {cs : List Char}

theorem makeToken_run (hs : s.Sound) (kind : TokenKind) (n : Nat)
    (error : Option LexError) :
    (makeToken kind s.position error).run (s.past n).cursor
      = .ok ((s.take kind n error).1, (s.past n).cursor) := by
  unfold makeToken
  rw [bind_run (get_run _), bind_run (lift_run (slice_run hs n) _)]
  rfl

theorem remember_run (s : Scanner) (kind : TokenKind) :
    (remember kind).run s.cursor = .ok ((), (s.remember kind).cursor) := by
  unfold remember Scanner.remember
  cases kind.isExtra <;> rfl

theorem breakMatters_run (hs : s.Sound) :
    breakMatters.run s.cursor = .ok (s.breakMatters s.rest, s.cursor) := by
  unfold breakMatters Scanner.breakMatters
  rw [bind_run (get_run _)]
  cases hmay : !s.cursor.breakEmitted
      && s.cursor.previous.any TokenKind.canEndStatement with
  | true =>
    rw [if_pos rfl, bind_run (ahead_run hs)]
    have hmay' : (!s.breakEmitted
        && s.previous.any TokenKind.canEndStatement) = true := hmay
    rw [hmay']
    rfl
  | false =>
    have hmay' : (!s.breakEmitted
        && s.previous.any TokenKind.canEndStatement) = false := hmay
    rw [hmay']
    rfl

/-- The token at the cursor, from its first character to its record. -/
theorem token_run (hs : s.Sound) (hrest : s.rest = c :: cs)
    (hblank : isBlank c = false) (hline : c ≠ '\n') :
    (do
      let (kind, error) ← tokenFrom s.position.offset
      let token ← makeToken kind s.position error
      remember kind
      return token : Scan Token).run s.cursor
      = .ok (s.next.1, s.next.2.cursor) := by
  have hsettle : s.settle = s := by
    refine settle_eq_self (fun d hd => ?_)
    rw [hrest] at hd
    obtain rfl : c = d := Option.some.inj hd
    exact ⟨hblank, fun h => absurd h hline⟩
  rw [bind_run (tokenFrom_run hs hrest)]
  dsimp only
  rw [bind_run (makeToken_run hs _ _ _), bind_run (remember_run _ _),
    Scanner.next, hsettle, read_cons hrest hline]
  rfl

/-- A line break at the cursor that may end a statement. -/
theorem lineBreak_run (hs : s.Sound) (hrest : s.rest = '\n' :: cs)
    (hmatters : s.breakMatters cs = true) :
    (do
      modify ({ · with breakEmitted := true })
      makeToken .lineBreak s.position none : Scan Token).run
        (s.past 1).cursor
      = .ok (s.next.1, s.next.2.cursor) := by
  have hsettle : s.settle = s := by
    refine settle_eq_self (fun d hd => ?_)
    rw [hrest] at hd
    obtain rfl : '\n' = d := Option.some.inj hd
    exact ⟨rfl, fun _ => by rw [hrest]; exact hmatters⟩
  have hread : s.read
      = ((s.take .lineBreak 1 none).1,
        { s.past 1 with breakEmitted := true }) := by
    unfold Scanner.read
    rw [hrest]
    rfl
  have hsound : ({ s with breakEmitted := true } : Scanner).Sound := by
    obtain ⟨before, hat⟩ := hs.at_front
    exact ⟨⟨before, hat.source_eq, hat.position_eq⟩, hs.short⟩
  rw [Scanner.next, hsettle, hread]
  exact makeToken_run hsound .lineBreak 1 none

theorem nextFrom_run (hs : s.Sound) {turns : Nat}
    (hturns : s.rest.length < turns) :
    (nextFrom turns).run s.cursor = .ok (s.next.1, s.next.2.cursor) := by
  induction turns generalizing s with
  | zero => exact absurd hturns (Nat.not_lt_zero _)
  | succ turns ih =>
    have hnext : s.next
        = (s.past (s.rest.takeWhile isBlank).length).next := by
      unfold Scanner.next
      rw [settle_past_blanks]
    have hblank : ∀ c cs, (s.past
        (s.rest.takeWhile isBlank).length).rest = c :: cs →
          isBlank c = false := by
      intro c cs hrest
      have hdrop : s.rest.drop (s.rest.takeWhile isBlank).length
          = s.rest.dropWhile isBlank := by
        have hboth := congrArg
          (List.drop (s.rest.takeWhile isBlank).length)
          (List.takeWhile_append_dropWhile (p := isBlank) (l := s.rest))
        rw [List.drop_left] at hboth
        exact hboth.symm
      have hhead := List.head?_dropWhile_not isBlank s.rest
      rw [← hdrop, ← past_rest, hrest] at hhead
      exact hhead
    have hlength : (s.past (s.rest.takeWhile isBlank).length).rest.length
        < turns + 1 := by
      rw [past_rest, List.length_drop]
      omega
    have ht := hs.past (s.rest.takeWhile isBlank).length
    unfold nextFrom
    rw [bind_run (forText_skipWhile_run hs _), bind_run (get_run _), hnext]
    generalize s.past (s.rest.takeWhile isBlank).length = t
      at hblank hlength ht
    cases hrest : t.rest with
    | nil =>
      have hread : t.next = t.take .eof 0 none := by
        rw [Scanner.next, settle_eq_self (by simp [hrest]), Scanner.read,
          hrest]
      rw [peek_bind_nil ht hrest, hread]
      exact makeToken_run ht .eof 0 none
    | cons c cs =>
      rw [peek_bind ht hrest]
      by_cases hline : c = '\n'
      · subst hline
        have hmatters : (t.past 1).breakMatters (t.past 1).rest
            = t.breakMatters cs := by
          rw [past_rest, hrest]
          rfl
        refine (advance_bind ht hrest).trans ?_
        rw [bind_run (breakMatters_run (ht.past 1)), hmatters]
        cases hbreak : t.breakMatters cs with
        | true => exact lineBreak_run ht hrest hbreak
        | false =>
          have hpast : (t.past 1).next = t.next := by
            unfold Scanner.next
            rw [settle_past_one hrest (by rw [hbreak]; rfl)]
          rw [← hpast]
          refine ih (ht.past 1) ?_
          rw [hrest, List.length_cons] at hlength
          rw [past_rest, hrest, List.drop_one, List.tail_cons]
          omega
      · dsimp only
        rw [if_neg hline]
        exact token_run ht hrest (hblank c cs hrest) hline

theorem next_run (hs : s.Sound) :
    next.run s.cursor = .ok (s.next.1, s.next.2.cursor) := by
  obtain ⟨turns, hturns, hforText⟩ := exists_turns hs
  exact (hforText nextFrom).trans (nextFrom_run hs hturns)

/-! ## The other operations -/

/-- A scanner that stands in the same text is as sound. -/
theorem Sound.of_eq {t : Scanner} {before : List Char} (hs : s.Sound)
    (hat : t.At before) (hsource : t.source = s.source) : t.Sound :=
  ⟨⟨before, hat⟩, hsource ▸ hs.short⟩

theorem rescanRegex_run (hs : s.Sound) {t : Token}
    (ht : t.IsPieceOf s.source) (heof : t.isEof = false) :
    (rescanRegex t).run s.cursor
      = .ok ((s.rescanRegex t).1, (s.rescanRegex t).2.cursor) := by
  obtain ⟨before, text, behind, hsource, hspells, hne⟩ := ht
  obtain ⟨c, text, rfl⟩ := List.exists_cons_of_ne_nil (hne heof)
  have hsplit : splitAtByte? s.source t.span.start
      = some (before, c :: text ++ behind) := by
    rw [splitAtByte?_eq_some_iff, hspells.span_eq]
    exact ⟨hsource, rfl⟩
  have hposition : (⟨t.position.line, t.position.column, t.span.start⟩
      : Position) = t.position := by
    rw [hspells.position_eq, hspells.span_eq]
    rfl
  -- The scanner sent back, before and after the note of an expression.
  obtain ⟨back, hback⟩ : ∃ back : Scanner, back
      = { s with position := t.position, rest := c :: (text ++ behind) } :=
    ⟨_, rfl⟩
  obtain ⟨noted, hnoted⟩ : ∃ noted : Scanner, noted
      = { back with previous := some .regex, breakEmitted := false } :=
    ⟨_, rfl⟩
  have hat : back.At before := by
    subst hback
    exact ⟨hsource, hspells.position_eq⟩
  have hsound : back.Sound := Sound.of_eq hs hat (by rw [hback])
  have hat' : noted.At before := by
    rw [hnoted]
    exact ⟨hat.source_eq, hat.position_eq⟩
  have hsound' : noted.Sound := Sound.of_eq hs hat' (by rw [hnoted, hback])
  have hrest : back.rest = c :: (text ++ behind) := by rw [hback]
  have hrest' : (back.past 1).rest = text ++ behind := by simp [hrest]
  have hscan : s.rescanRegex t
      = noted.take .regex ((Lexeme.regex (text ++ behind)).extent + 1)
        (Lexeme.regex (text ++ behind)).error := by
    unfold Scanner.rescanRegex
    simp only [hsplit]
    subst hnoted hback
    rfl
  rw [hscan]
  unfold rescanRegex
  have hmodify : (modify (fun x : Cursor => { x with position :=
      ⟨t.position.line, t.position.column, t.span.start⟩ }) : Scan Unit).run
        s.cursor = .ok ((), back.cursor) := by
    rw [hback, hposition]
    rfl
  rw [bind_run hmodify, advance_bind hsound hrest,
    bind_run (regex_run (hsound.past 1)), hrest', past_past, Nat.add_comm 1]
  have htoken := makeToken_run hsound' .regex
    ((Lexeme.regex (text ++ behind)).extent + 1)
    (Lexeme.regex (text ++ behind)).error
  subst hnoted hback
  exact htoken

theorem nextOfStream_run (hs : s.Sound) :
    nextOfStream.run s.cursor = match s.next? with
      | some step => .ok (some step.1, step.2.cursor)
      | none => .ok (none, s.cursor) := by
  have hfinished : s.cursor.finished = s.finished := rfl
  unfold nextOfStream Scanner.next?
  rw [bind_run (get_run _), hfinished]
  cases s.finished with
  | true => rfl
  | false =>
    rw [if_neg Bool.false_ne_true, if_neg Bool.false_ne_true,
      bind_run (next_run hs)]
    dsimp only
    cases s.next.1.isEof with
    | true => rfl
    | false => rfl

/-- Behind the next token there is a scanner in the same text. -/
theorem Sound.next (hs : s.Sound) : s.next.2.Sound := by
  obtain ⟨before, hat⟩ := hs.at_front
  obtain ⟨-, hsource, behind, hbehind⟩ := next_isPieceOf hat
  exact Sound.of_eq hs hbehind hsource

theorem drainFrom_run (hs : s.Sound) (hfinished : s.finished = false)
    {turns : Nat} (hturns : s.rest.length + 1 < turns) (found : List Token) :
    (drainFrom turns found).run s.cursor
      = .ok ((s.drainFrom found).1, (s.drainFrom found).2.cursor) := by
  have hnext? (s : Scanner) (h : s.finished = false) :
      s.next? = some (s.next.1,
        if s.next.1.isEof then { s.next.2 with finished := true }
        else s.next.2) := by
    unfold Scanner.next?
    rw [h]
    rfl
  induction turns generalizing s found with
  | zero => exact absurd hturns (Nat.not_lt_zero _)
  | succ turns ih =>
    have hrun := nextOfStream_run hs
    rw [hnext? s hfinished] at hrun
    unfold drainFrom Scanner.drainFrom
    rw [bind_run hrun]
    dsimp only
    cases heof : s.next.1.isEof with
    | true =>
      -- The stream has ended, as one more turn finds out.
      obtain ⟨turns, rfl⟩ : ∃ n, turns = n + 1 := ⟨turns - 1, by omega⟩
      rw [if_pos rfl, if_pos rfl, drainFrom]
      rfl
    | false =>
      have hshorter := next_rest_length_lt s heof
      rw [if_neg Bool.false_ne_true, if_neg Bool.false_ne_true]
      exact ih (Sound.next hs) ((next_finished s).trans hfinished) (by omega)
        (s.next.1 :: found)

theorem drain_run (hs : s.Sound) :
    (forText (fun turns => drainFrom (turns + 1) [])).run s.cursor
      = .ok (s.drain.1, s.drain.2.cursor) := by
  obtain ⟨turns, hturns, hforText⟩ := exists_turns hs
  rw [hforText]
  unfold Scanner.drain
  cases hfinished : s.finished with
  | true =>
    have hnext? : s.next? = none := by
      unfold Scanner.next?
      rw [hfinished]
      rfl
    have hrun := nextOfStream_run hs
    rw [hnext?] at hrun
    rw [drainFrom, bind_run hrun]
    rfl
  | false => exact drainFrom_run hs hfinished (by omega) []

/-! ## Sessions -/

/-- **A session with a cursor and one with a scanner** answer the same. -/
theorem perform_run {k : Session} {source : List Char} (h : k.In source)
    (hshort : byteLength source < UInt32.size - 1) (request : Request) :
    (perform k.tokens request).run k.scanner.cursor
      = .ok ((k.perform request).tokens,
        (k.perform request).scanner.cursor) := by
  have hs : k.scanner.Sound := ⟨h.at_front, h.source_eq ▸ hshort⟩
  cases request with
  | next =>
    unfold perform
    rw [bind_run (next_run hs)]
    rfl
  | nextOfStream =>
    have hrun := nextOfStream_run hs
    unfold perform Session.perform
    cases hnext : k.scanner.next? with
    | none =>
      rw [hnext] at hrun
      rw [bind_run hrun]
      simp
      rfl
    | some step =>
      rw [hnext] at hrun
      rw [bind_run hrun]
      rfl
  | drainCopy =>
    unfold perform
    rw [bind_run (get_run _), bind_run (drain_run hs)]
    rfl
  | rescanRegex i =>
    simp only [perform, Session.perform]
    cases htoken : k.tokens[i]? with
    | none => rfl
    | some token =>
      dsimp only
      cases heof : token.isEof with
      | true => rfl
      | false =>
        have hpiece := h.isPieceOf token (List.mem_of_getElem? htoken)
        rw [if_neg Bool.false_ne_true, if_neg Bool.false_ne_true,
          bind_run (rescanRegex_run hs (h.source_eq ▸ hpiece) heof)]
        rfl

/-- **No session with a cursor is ever at fault**, and it hands out what
the scanner does. -/
theorem session_run {source : List Char}
    (hshort : byteLength source < UInt32.size - 1) (requests : List Request) :
    let k := (Session.ofSource source).run requests
    (session requests).run (.ofSource source)
      = .ok (k.tokens, k.scanner.cursor) := by
  suffices h : ∀ k : Session, k.In source →
      (requests.foldlM perform k.tokens : Scan _).run k.scanner.cursor
        = .ok ((k.run requests).tokens, (k.run requests).scanner.cursor) from
    h (.ofSource source) (Session.ofSource_in source)
  intro k hk
  induction requests generalizing k with
  | nil => rfl
  | cons request requests ih =>
    rw [List.foldlM_cons, bind_run (perform_run hk hshort request)]
    exact ih (k.perform request) (hk.perform request)

end Scan

end ScriptTree
