import ScriptTree.Parse.Operand
import ScriptTree.Proofs.Cursor.Scanning

/-!
# Slices and counters of a parse

The scanner is not alone in cutting texts: a parse finds the line of an
offset by cutting the text before it, and takes the literal of a regular
expression apart. On its way to a delimiter it also counts the brackets it
passes, up and down. Here all three are once more with slices and counters
that can fail, and that they never do needs no assumption on where a parse
stands.

The first two cut behind the last character of a kind, found from behind
(`lastByte?`). The third counts down at a closing bracket. It stops in
front of one that closes nothing it has counted, so what it counts down is
never zero; if it looked for the bracket after counting, it would be.
-/

namespace ScriptTree

/-! ## The last character of a kind -/

/-- **The offset of the last character of a kind.** -/
def lastByte? (c : Char) : List Char → Option Nat
  | [] => none
  | x :: text =>
    match lastByte? c text with
    | some offset => some (x.utf8Size + offset)
    | none => if x = c then some 0 else none

/-- **Where the last character of a kind is**: there is none, or it stands
between a front and a back without another one. -/
theorem lastByte?_cases (c : Char) (text : List Char) :
    (lastByte? c text = none ∧ c ∉ text)
      ∨ ∃ front back, text = front ++ c :: back ∧ c ∉ back
        ∧ lastByte? c text = some (byteLength front) := by
  induction text with
  | nil => exact .inl ⟨rfl, List.not_mem_nil⟩
  | cons x text ih =>
    obtain ⟨hlast, hmem⟩ | ⟨front, back, htext, hmem, hlast⟩ := ih
    · by_cases hx : x = c
      · exact .inr ⟨[], text, by rw [hx]; rfl, hmem,
          by simp [lastByte?, hlast, hx]⟩
      · exact .inl ⟨by simp [lastByte?, hlast, hx],
          by simp [Ne.symm hx, hmem]⟩
    · exact .inr ⟨x :: front, back, by rw [htext]; rfl, hmem,
        by simp [lastByte?, hlast]⟩

/-- From the end of a text on, all characters behind the last one of a
kind are of another kind. -/
theorem takeWhile_reverse_append {c : Char} {back : List Char}
    (h : c ∉ back) (front : List Char) :
    (back.reverse ++ front).takeWhile (· ≠ c)
      = back.reverse ++ front.takeWhile (· ≠ c) := by
  refine List.takeWhile_append_of_pos (fun x hx => decide_eq_true ?_)
  rintro rfl
  exact h (List.mem_reverse.1 hx)

theorem takeWhile_reverse_of_not_mem {c : Char} {text : List Char}
    (h : c ∉ text) : text.reverse.takeWhile (· ≠ c) = text.reverse := by
  simpa using takeWhile_reverse_append h []

theorem takeWhile_reverse_behind {c : Char} {front back : List Char}
    (h : c ∉ back) :
    (front ++ c :: back).reverse.takeWhile (· ≠ c) = back.reverse := by
  simpa using takeWhile_reverse_append h (c :: front.reverse)

/-! ## The line of an offset -/

/-- **The place of a byte offset**, found by counting the line breaks
before it and cutting the text behind the last of them. -/
def positionAtOrFail (source : List Char) (offset : Nat) :
    Except Fault Position := do
  let front :=
    match splitAtByte? source offset with
    | some (front, _) => front
    | none => source
  let lineStart :=
    match lastByte? '\n' front with
    | some lineEnd => lineEnd + 1
    | none => 0
  let line ← sliceOrFail front ⟨lineStart, byteLength front⟩
  Position.orFail ⟨front.count '\n' + 1, line.length + 1, byteLength front⟩

/-- The last line of a text is a slice of it. -/
theorem sliceOrFail_lastLine (front : List Char) :
    ∃ line,
      sliceOrFail front
          ⟨match lastByte? '\n' front with
            | some lineEnd => lineEnd + 1
            | none => 0, byteLength front⟩ = .ok line
        ∧ line.length = (front.reverse.takeWhile (· ≠ '\n')).length := by
  obtain ⟨hlast, hmem⟩ | ⟨before, line, htext, hmem, hlast⟩ :=
    lastByte?_cases '\n' front
  · refine ⟨front, ?_, ?_⟩
    · have h := sliceOrFail_append [] front []
      rw [hlast]
      simpa using h
    · rw [takeWhile_reverse_of_not_mem hmem, List.length_reverse]
  · refine ⟨line, ?_, ?_⟩
    · have h := sliceOrFail_append (before ++ ['\n']) line []
      have hstart : byteLength (before ++ ['\n'])
          = byteLength before + 1 := by
        rw [byteLength_append]
        rfl
      have hsplit : before ++ ['\n'] ++ (line ++ []) = front := by
        simp [htext]
      rw [hlast]
      dsimp only
      rw [← hstart]
      have hstop : byteLength front
          = byteLength (before ++ ['\n']) + byteLength line := by
        rw [← byteLength_append, ← hsplit, List.append_nil]
      rwa [hsplit, ← hstop] at h
    · rw [htext, takeWhile_reverse_behind hmem, List.length_reverse]

/-- **The place of an offset is found without a fault**, be the offset in
the text or not. -/
theorem positionAtOrFail_eq {source : List Char}
    (hshort : byteLength source < UInt32.size - 1) (offset : Nat) :
    positionAtOrFail source offset = .ok (positionAt source offset) := by
  have hfront (front rest : List Char) (hs : source = front ++ rest) :
      (do
        let line ← sliceOrFail front
          ⟨match lastByte? '\n' front with
            | some lineEnd => lineEnd + 1
            | none => 0, byteLength front⟩
        Position.orFail ⟨front.count '\n' + 1, line.length + 1,
          byteLength front⟩) = .ok (Position.after front) := by
    obtain ⟨line, hline, hlength⟩ := sliceOrFail_lastLine front
    rw [hline, Position.after_eq_counted hs hshort]
    show Position.orFail _ = _
    rw [hlength]
    exact if_pos (Position.counted_fits hs hshort)
  unfold positionAtOrFail positionAt
  cases hsplit : splitAtByte? source offset with
  | none => exact hfront source [] (List.append_nil source).symm
  | some parts =>
    obtain ⟨front, rest⟩ := parts
    exact hfront front rest (splitAtByte?_eq_some_iff.1 hsplit).1

/-! ## The parts of a regular expression -/

/-- **The two parts of a regular expression**, cut at its last slash. -/
def regexPartsOrFail (text : List Char) :
    Except Fault (List Char × List Char) := do
  let body := if text.head? = some '/' then text.tail else text
  match lastByte? '/' body with
  | none => return (body, [])
  | some slash =>
    let pattern ← sliceOrFail body ⟨0, slash⟩
    let flags ← sliceOrFail body ⟨slash + 1, byteLength body⟩
    return (pattern, flags)

/-- What lies behind the opening slash is cut at its last slash. -/
theorem cutAtSlash_eq (body : List Char) :
    (match lastByte? '/' body with
      | none => pure (body, [])
      | some slash => do
        let pattern ← sliceOrFail body ⟨0, slash⟩
        let flags ← sliceOrFail body ⟨slash + 1, byteLength body⟩
        pure (pattern, flags) : Except Fault (List Char × List Char))
      = .ok (
        let flags := (body.reverse.takeWhile (· ≠ '/')).reverse
        if flags.length = body.length then (body, [])
        else (body.take (body.length - flags.length - 1), flags)) := by
  obtain ⟨hlast, hmem⟩ | ⟨pattern, flags, rfl, hmem, hlast⟩ :=
    lastByte?_cases '/' body
  · rw [hlast, takeWhile_reverse_of_not_mem hmem, List.reverse_reverse]
    dsimp only
    rw [if_pos rfl]
    rfl
  · have hpattern := sliceOrFail_append [] pattern ('/' :: flags)
    have hflags := sliceOrFail_append (pattern ++ ['/']) flags []
    have hstart : byteLength (pattern ++ ['/'])
        = byteLength pattern + 1 := by
      rw [byteLength_append]
      rfl
    have hsplit : pattern ++ ['/'] ++ (flags ++ [])
        = pattern ++ '/' :: flags := by simp
    have hstop : byteLength (pattern ++ ['/']) + byteLength flags
        = byteLength (pattern ++ '/' :: flags) := by
      rw [← byteLength_append, List.append_assoc]
      rfl
    rw [hsplit, hstop, hstart] at hflags
    rw [List.nil_append, byteLength_nil, Nat.zero_add] at hpattern
    rw [hlast, takeWhile_reverse_behind hmem, List.reverse_reverse]
    dsimp only
    rw [hpattern, hflags]
    have hlength : (pattern ++ '/' :: flags).length
        = pattern.length + (flags.length + 1) := List.length_append
    rw [if_neg (by omega), show (pattern ++ '/' :: flags).length
      - flags.length - 1 = pattern.length by omega, List.take_left]
    rfl

/-- **Any text can be taken apart** as a regular expression. -/
theorem regexPartsOrFail_eq (text : List Char) :
    regexPartsOrFail text = .ok (Parse.regexParts text) := by
  cases text with
  | nil => exact cutAtSlash_eq []
  | cons c cs =>
    by_cases hc : c = '/'
    · subst hc
      exact cutAtSlash_eq cs
    · have hhead : (c :: cs).head? ≠ some '/' := by simp [hc]
      unfold regexPartsOrFail Parse.regexParts
      rw [if_neg hhead]
      split
      · rename_i heq
        exact absurd (List.cons.inj heq).1 hc
      · exact cutAtSlash_eq (c :: cs)

/-! ## The way to a delimiter -/

namespace Parse

/-- A counter taken down by one, if there is something to take. -/
def downOrFail : Nat → Except Fault Nat
  | 0 => .error .underflow
  | n + 1 => .ok n

/-- The bracket depth behind a token, counted up or down. -/
def depthAfterOrFail (token : Token) (depth : Nat) : Except Fault Nat :=
  if token.kind.isOpener then .ok (depth + 1)
  else if token.kind.isCloser then downOrFail depth
  else .ok depth

/-- Nothing is counted down from zero but at a closing bracket. -/
theorem depthAfterOrFail_eq {token : Token} {depth : Nat}
    (h : ¬(depth = 0 ∧ token.kind.isCloser = true)) :
    depthAfterOrFail token depth = .ok (depthAfter token depth) := by
  unfold depthAfterOrFail depthAfter
  split
  · rfl
  · split
    · cases depth with
      | zero => exact absurd ⟨rfl, ‹_›⟩ h
      | succ depth => rfl
    · rfl

/-- **The way to the delimiter of a point**, with brackets counted up and
down. -/
def skipToOrFail (point : TolerantPoint) : (turns depth : Nat) →
    (taken : Bool) → ReaderT Context (StateT State (Except Fault)) Bool
  | 0, _, taken => return taken
  | turns + 1, depth, taken => do
    let ctx ← read
    let s ← get
    let token := s.current
    let newline := s.newlineBefore && ctx.newlinesMatter
    if token.isEof then
      return taken
    else if depth = 0 && token.kind.isCloser then
      return taken
    else if depth = 0 && taken && point.syncsAt token newline then
      return taken
    else
      let depth ← depthAfterOrFail token depth
      modify (·.bump ctx)
      skipToOrFail point turns depth true

/-- **No bracket is counted down that was not counted up.** -/
theorem skipToOrFail_eq (point : TolerantPoint) (turns depth : Nat)
    (taken : Bool) (ctx : Context) (s : State) :
    skipToOrFail point turns depth taken ctx s
      = .ok (skipTo point turns depth taken ctx s) := by
  induction turns generalizing depth taken s with
  | zero => rfl
  | succ turns ih =>
    show (if _ then _ else _ : ReaderT Context (StateT State (Except Fault))
      Bool) ctx s = .ok ((if _ then _ else _ : Action Bool) ctx s)
    by_cases heof : s.current.isEof = true
    · rw [if_pos heof, if_pos heof]
      rfl
    rw [if_neg heof, if_neg heof]
    by_cases hcloser : depth = 0 ∧ s.current.kind.isCloser = true
    · rw [if_pos (by simp [hcloser]), if_pos (by simp [hcloser])]
      rfl
    rw [if_neg (by simpa using hcloser)]
    by_cases hsyncs : (depth = 0 ∧ taken = true) ∧ point.syncsAt s.current
        (s.newlineBefore && ctx.newlinesMatter) = true
    · rw [if_pos (by simp [hsyncs]), if_pos (by simp [hsyncs])]
      rfl
    have hgo : ¬(decide (depth = 0) && (s.current.kind.isCloser
        || taken && point.syncsAt s.current
          (s.newlineBefore && ctx.newlinesMatter))) = true := by
      simp only [Bool.and_eq_true, Bool.or_eq_true, decide_eq_true_eq]
      rintro ⟨hdepth, h | ⟨htaken, h⟩⟩
      · exact hcloser ⟨hdepth, h⟩
      · exact hsyncs ⟨⟨hdepth, htaken⟩, h⟩
    rw [if_neg (by simpa using hsyncs), if_neg hgo]
    -- What is left counts down only what has been counted up.
    have hcount := depthAfterOrFail_eq hcloser
    show (liftM (depthAfterOrFail s.current depth) >>= _ : ReaderT Context
      (StateT State (Except Fault)) Bool) ctx s = _
    rw [hcount]
    exact ih _ true (s.bump ctx)

end Parse

end ScriptTree
