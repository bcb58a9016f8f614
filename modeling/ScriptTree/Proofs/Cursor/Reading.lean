import ScriptTree.Proofs.Cursor.Scanning

/-!
# What a scan finds

From the first character of a token a scan decides step by step what it is
going to read, and for marks it asks for one more character at a time. The
lexeme of the scanner is looked up in the list of all marks instead, the
longest one first. The two agree because of what that list holds: for each
character the marks that begin with it are known
(`Punctuator.behind`), and which of them is the longest in front of a text
takes no more than the characters the scan asks for
(`Punctuator.longest?_cons`). There is one rule for each shape such marks
may have, `mark_finds` to the last of them, and `tokenFrom_run` puts them
together with the tokens that have an end of their own.
-/

namespace ScriptTree

/-! ## Marks by their first character -/

namespace Punctuator

/-- **The marks that begin with a character**, the longer ones first, each
with what it has behind that character. -/
def behind (c : Char) : List (List Char × Punctuator) :=
  spelled.filterMap (fun s => match s.1 with
    | d :: ds => if d = c then some (ds, s.2) else none
    | [] => none)

/-- To find the longest mark it is enough to look at those that begin with
the right character. -/
theorem longest?_cons (c : Char) (cs : List Char) :
    longest? (c :: cs) = ((behind c).find? (fun s => s.1.isPrefixOf cs)).map
      (fun s => (s.2, s.1.length + 1)) := by
  unfold longest? behind
  have hne : ∀ s ∈ spelled, s.1 ≠ [] := by decide
  generalize spelled = marks at hne
  induction marks with
  | nil => rfl
  | cons s marks ih =>
    have ih := ih (fun t ht => hne t (List.mem_cons_of_mem s ht))
    obtain ⟨text, p⟩ := s
    cases text with
    | nil => exact absurd rfl (hne ([], p) List.mem_cons_self)
    | cons d ds =>
      by_cases hd : d = c
      · subst hd
        by_cases hds : ds.isPrefixOf cs = true
        · simp [hds]
        · simp [hds, ih]
      · simp [hd, ih]

/-- The characters marks begin with. -/
def firsts : List Char :=
  ['(', ')', '{', '}', '[', ']', ';', ',', '.', ':', '?', '~', '^', '%',
    '=', '+', '-', '*', '!', '<', '>', '&', '|', '/']

/-- No mark begins with any other character. -/
theorem behind_eq_nil {c : Char} (hc : c ∉ firsts) : behind c = [] := by
  have hfirst : (spelled.all fun s =>
      s.1.head?.all fun d => decide (d ∈ firsts)) = true := by decide
  refine List.filterMap_eq_nil_iff.2 (fun s hs => ?_)
  split
  · rename_i d ds htext
    refine if_neg (fun heq => hc ?_)
    have hhead := List.all_eq_true.mp hfirst s hs
    rw [htext] at hhead
    exact heq ▸ of_decide_eq_true hhead
  · rfl

/-- A text begins with one character if that is its first. -/
theorem isPrefixOf_singleton (a : Char) (cs : List Char) :
    [a].isPrefixOf cs = decide (cs.head? = some a) := by
  cases cs with
  | nil => rfl
  | cons c cs =>
    by_cases h : c = a
    · simp [List.isPrefixOf, h]
    · simp [List.isPrefixOf, h, Ne.symm h]

/-- It begins with two if they are its first and its second. -/
theorem isPrefixOf_pair (a b : Char) (cs : List Char) :
    [a, b].isPrefixOf cs
      = (decide (cs.head? = some a) && decide (cs.tail.head? = some b)) := by
  cases cs with
  | nil => rfl
  | cons c cs =>
    by_cases h : c = a
    · subst h
      simp only [List.isPrefixOf_cons_cons, isPrefixOf_singleton,
        beq_self_eq_true, Bool.true_and, List.head?_cons, List.tail_cons,
        decide_true]
      rfl
    · simp [List.isPrefixOf, h, Ne.symm h]

end Punctuator

/-- Without a slash there is no comment and no regular expression. -/
theorem Lexeme.atFront_of_ne_slash (slashDivides : Bool) {c : Char}
    (hc : c ≠ '/') (cs : List Char) :
    Lexeme.atFront slashDivides c cs = match Punctuator.longest? (c :: cs) with
      | some (p, n) => ⟨.punctuator p, n - 1, none⟩
      | none =>
        if c = '"' || c = '\x27' then string c cs
        else if c = '\x60' then template cs
        else if c.isDigit then ⟨.number, numberExtent c cs, none⟩
        else if isWordStart c then word c cs
        else stray c cs := by
  unfold atFront
  split
  · exact absurd rfl hc
  · exact absurd rfl hc
  · exact (if_neg (by simp [hc])).trans rfl

namespace Scan

open Scanner

/-- **One character is read if it comes next**, and what follows is told
whether it was. -/
theorem matchChar_bind {α : Type} {s : Scanner} (hs : s.Sound) (c : Char)
    {f : Bool → Scan α} :
    (matchChar c >>= f).run s.cursor
      = if s.rest.head? = some c then (f true).run (s.past 1).cursor
        else (f false).run s.cursor := by
  split
  · rename_i h
    obtain ⟨cs, hrest⟩ := List.head?_eq_some_iff.1 h
    exact bind_run (matchChar_run_eq hs hrest)
  · rename_i h
    exact bind_run (matchChar_run_ne hs h)

/-- **A scan finds a token** whose first character it has passed. -/
def Finds (x : Scan (TokenKind × Option LexError)) (s : Scanner)
    (lexeme : Lexeme) : Prop :=
  x.run (s.past 1).cursor
    = .ok ((lexeme.kind, lexeme.error), (s.past (lexeme.extent + 1)).cursor)

section Marks

open Punctuator (behind longest?_cons isPrefixOf_singleton isPrefixOf_pair
  notEqEq notEq not eqEqEq arrow eqEq assign)

variable {s : Scanner} {c : Char} {cs : List Char} {slashDivides : Bool}

/-- A mark is known by what has been read, and reads no more. -/
theorem mark_run (p : Punctuator) (c : Cursor) :
    (mark p).run c = .ok ((.punctuator p, none), c) := rfl

/-- A mark that begins no other one. -/
theorem mark_finds (hc : c ≠ '/') {p : Punctuator}
    (hbehind : behind c = [([], p)]) :
    Finds (mark p) s (Lexeme.atFront slashDivides c cs) := by
  rw [Lexeme.atFront_of_ne_slash _ hc, longest?_cons, hbehind]
  rfl

/-- **A mark that may be the front of a longer one**: the longer one is found
if it is there. -/
theorem longer_finds (hs : s.Sound) (hrest : s.rest = c :: cs)
    (hc : c ≠ '/') {p q : Punctuator} {d : Char}
    (hbehind : behind c = [([d], q), ([], p)]) :
    Finds (do if ← matchChar d then mark q else mark p) s
      (Lexeme.atFront slashDivides c cs) := by
  rw [Lexeme.atFront_of_ne_slash _ hc, longest?_cons, hbehind]
  simp only [Finds, matchChar_bind (hs.past _), past_past, past_rest,
    mark_run, if_true, if_false, Bool.false_eq_true, hrest,
    List.drop_succ_cons, List.drop_zero, List.find?_cons,
    isPrefixOf_singleton]
  by_cases h : cs.head? = some d <;> simp [h]

/-- A mark that may be the front of two others. -/
theorem either_finds (hs : s.Sound) (hrest : s.rest = c :: cs)
    (hc : c ≠ '/') {p q r : Punctuator} {d : Char} (hd : d ≠ '=')
    (hbehind : behind c = [(['='], r), ([d], q), ([], p)]) :
    Finds (do
      if ← matchChar d then mark q
      else if ← matchChar '=' then mark r
      else mark p) s (Lexeme.atFront slashDivides c cs) := by
  rw [Lexeme.atFront_of_ne_slash _ hc, longest?_cons, hbehind]
  simp only [Finds, matchChar_bind (hs.past _), past_past, past_rest,
    mark_run, if_true, if_false, Bool.false_eq_true, hrest,
    List.drop_succ_cons, List.drop_zero, List.find?_cons,
    isPrefixOf_singleton]
  by_cases h : cs.head? = some d
  · simp [h, hd]
  · by_cases h' : cs.head? = some '='
    · simpa [h'] using fun heq : '=' = d => absurd heq.symm hd
    · simp [h, h']

/-- The mark for negation, with one equality sign behind it, or two. -/
theorem not_finds (hs : s.Sound) (hrest : s.rest = '!' :: cs) :
    Finds (do
      if ← matchChar '=' then
        if ← matchChar '=' then mark .notEqEq else mark .notEq
      else mark .not) s (Lexeme.atFront slashDivides '!' cs) := by
  have hbehind : behind '!' = [(['=', '='], notEqEq), (['='], notEq),
    ([], not)] := by decide
  rw [Lexeme.atFront_of_ne_slash _ (by decide), longest?_cons, hbehind]
  simp only [Finds, matchChar_bind (hs.past _), past_past, past_rest,
    mark_run, if_true, if_false, Bool.false_eq_true, hrest,
    List.drop_succ_cons, List.drop_zero, List.drop_one, List.find?_cons,
    isPrefixOf_singleton, isPrefixOf_pair]
  generalize cs.tail.head? = second
  by_cases h : cs.head? = some '='
  · by_cases h' : second = some '=' <;> simp [h, h']
  · simp [h]

/-- The equality signs, one to three of them, and the arrow. -/
theorem assign_finds (hs : s.Sound) (hrest : s.rest = '=' :: cs) :
    Finds (do
      if ← matchChar '>' then mark .arrow
      else if ← matchChar '=' then
        if ← matchChar '=' then mark .eqEqEq else mark .eqEq
      else mark .assign) s (Lexeme.atFront slashDivides '=' cs) := by
  have hbehind : behind '=' = [(['=', '='], eqEqEq), (['>'], arrow),
    (['='], eqEq), ([], assign)] := by decide
  rw [Lexeme.atFront_of_ne_slash _ (by decide), longest?_cons, hbehind]
  simp only [Finds, matchChar_bind (hs.past _), past_past, past_rest,
    mark_run, if_true, if_false, Bool.false_eq_true, hrest,
    List.drop_succ_cons, List.drop_zero, List.drop_one, List.find?_cons,
    isPrefixOf_singleton, isPrefixOf_pair]
  generalize cs.tail.head? = second
  by_cases h : cs.head? = some '>'
  · simp [h]
  · by_cases h' : cs.head? = some '='
    · by_cases h'' : second = some '=' <;> simp [h', h'']
    · simp [h, h']

theorem regex_finds (hs : s.Sound) (hrest : s.rest = c :: cs) :
    Finds (return (.regex, ← regex)) s (Lexeme.regex cs) := by
  have hrest' : (s.past 1).rest = cs := by simp [hrest]
  unfold Finds
  rw [bind_run (regex_run (hs.past 1)), hrest', past_past, Nat.add_comm]
  rfl

/-- A string, up to its quote. -/
theorem string_finds (hs : s.Sound) (hrest : s.rest = c :: cs)
    (hescape : c ≠ '\\') :
    Finds (return (.string, ← forText (string c))) s
      (Lexeme.string c cs) := by
  have hrest' : (s.past 1).rest = cs := by simp [hrest]
  obtain ⟨turns, hturns, hforText⟩ := exists_turns (hs.past 1)
  obtain ⟨k, hk, hrun⟩ := string_counts (hs.past 1) hescape hturns 0
  rw [hrest', Nat.zero_add] at hk
  unfold Finds Lexeme.string
  rw [bind_run ((hforText _).trans hrun), hrest', past_past, Nat.add_comm, ← hk]
  rfl

/-- A loop that closes, or goes back, finds a token that is as long as the
loop says. -/
theorem Closes.finds {x : Nat → Scan (Option LexError)} {m : Nat}
    {error : LexError} {extent? : Option Nat} (kind : TokenKind)
    (hs : (s.past (m + 1)).Sound)
    (h : ∀ turns, (s.past (m + 1)).rest.length < turns →
      Closes (x turns) (s.past (m + 1)) none error m extent?) :
    (do return (kind, ← forText x) : Scan _).run (s.past (m + 1)).cursor
      = .ok ((kind, if extent?.isSome then none else some error),
        (s.past (extent?.getD
          (m + lineExtent (s.past (m + 1)).rest) + 1)).cursor) := by
  obtain ⟨turns, hturns, hforText⟩ := exists_turns hs
  have hcloses := h turns hturns
  cases extent? with
  | some n =>
    obtain ⟨k, rfl, hrun⟩ := hcloses
    rw [bind_run ((hforText x).trans hrun), past_past,
      Nat.add_right_comm m 1 k]
    rfl
  | none =>
    have hend : lineEnd (s.past (m + 1)) none
        = (s.past (m + lineExtent (s.past (m + 1)).rest + 1)).position := by
      rw [Nat.add_right_comm m _ 1]
      exact congrArg Scanner.position (past_past s (m + 1) _)
    have hrun : (x turns).run (s.past (m + 1)).cursor
        = .ok (some error, (s.past
          (m + lineExtent (s.past (m + 1)).rest + 1)).cursor) := by
      refine Eq.trans hcloses ?_
      rw [hend]
      rfl
    rw [bind_run ((hforText x).trans hrun)]
    rfl

/-- A template, up to its quote. -/
theorem template_finds (hs : s.Sound) (hrest : s.rest = c :: cs) :
    Finds (return (.template, ← forText (template · none))) s
      (Lexeme.template cs) := by
  have hrest' : (s.past 1).rest = cs := by simp [hrest]
  have hfinds := Closes.finds (s := s) (m := 0) .template (hs.past 1)
    (fun _ hturns => template_closes (hs.past 1) hturns none 0)
  unfold Finds
  rw [hfinds, Nat.zero_add, hrest', Lexeme.template]
  cases templateExtent? cs 0 <;> rfl

theorem blockComment_finds (hs : s.Sound)
    (hrest : s.rest = '/' :: '*' :: cs) :
    (do return (.comment, ← forText (blockComment · none)) :
      Scan (TokenKind × Option LexError)).run (s.past 2).cursor
      = .ok (((Lexeme.blockComment cs).kind, (Lexeme.blockComment cs).error),
        (s.past ((Lexeme.blockComment cs).extent + 1)).cursor) := by
  have hrest' : (s.past 2).rest = cs := by simp [hrest]
  have hfinds := Closes.finds (s := s) (m := 1) .comment (hs.past 2)
    (fun _ hturns => blockComment_closes (hs.past 2) hturns none 1)
  rw [hfinds, hrest', Lexeme.blockComment]
  cases commentExtent? cs 1 <;> rfl

/-- A slash that begins no comment. -/
theorem atFront_slash (hline : cs.head? ≠ some '/')
    (hblock : cs.head? ≠ some '*') :
    Lexeme.atFront slashDivides '/' cs
      = if !slashDivides then Lexeme.regex cs
        else if cs.head? = some '=' then ⟨.punctuator .slashEq, 1, none⟩
        else ⟨.punctuator .slash, 0, none⟩ := by
  have hbehind : behind '/' = [(['='], .slashEq), ([], .slash)] := by decide
  have hlongest : Punctuator.longest? ('/' :: cs)
      = if cs.head? = some '=' then some (.slashEq, 2)
        else some (.slash, 1) := by
    rw [longest?_cons, hbehind]
    simp only [List.find?_cons, isPrefixOf_singleton]
    by_cases hequals : cs.head? = some '=' <;> simp [hequals]
  unfold Lexeme.atFront
  split
  · exact absurd rfl hline
  · exact absurd rfl hblock
  · cases slashDivides with
    | false => rfl
    | true =>
      simp only [Bool.not_true, Bool.and_false, Bool.false_eq_true, if_false,
        hlongest]
      split at hlongest <;> simp_all

/-- **A slash** is read by what is behind it, and by the token before it. -/
theorem slash_finds (hs : s.Sound) (hrest : s.rest = '/' :: cs) :
    Finds slash s
      (Lexeme.atFront (s.previous.any TokenKind.canEndExpression) '/' cs) := by
  have hrest' : (s.past 1).rest = cs := by simp [hrest]
  have hprevious : (s.past 1).cursor.previous = s.previous := rfl
  unfold Finds slash
  rw [matchChar_bind (hs.past 1), hrest']
  by_cases hline : cs.head? = some '/'
  · obtain ⟨cs, rfl⟩ := List.head?_eq_some_iff.1 hline
    have hextent : ((s.past 2).rest.takeWhile (· ≠ '\n')).length
        = lineExtent cs := by simp [lineExtent, hrest]
    rw [if_pos hline, if_pos rfl, past_past,
      bind_run (forText_skipWhile_run (hs.past 2) _), past_past, hextent,
      Lexeme.atFront, show 2 + lineExtent cs = 1 + lineExtent cs + 1 by omega]
    rfl
  rw [if_neg hline, if_neg Bool.false_ne_true, matchChar_bind (hs.past 1),
    hrest']
  by_cases hblock : cs.head? = some '*'
  · obtain ⟨cs, rfl⟩ := List.head?_eq_some_iff.1 hblock
    rw [if_pos hblock, if_pos rfl, past_past]
    exact blockComment_finds hs hrest
  rw [if_neg hblock, if_neg Bool.false_ne_true, bind_run (get_run _),
    hprevious, atFront_slash hline hblock]
  cases s.previous.any TokenKind.canEndExpression with
  | false => exact regex_finds hs hrest
  | true =>
    rw [if_neg (by simp), matchChar_bind (hs.past 1), hrest']
    by_cases hequals : cs.head? = some '='
    · simp only [hequals, if_true, past_past]
      rfl
    · simp only [hequals, if_false]
      rfl

/-- A word is read to its end, and then looked up. -/
theorem word_finds (hs : s.Sound) (hrest : s.rest = c :: cs) :
    Finds (word s.position.offset) s (Lexeme.word c cs) := by
  have hs1 := hs.past 1
  have hrest1 : (s.past 1).rest = cs := by simp [hrest]
  unfold Finds word
  rw [bind_run (forText_skipWhile_run hs1 _), hrest1, past_past,
    bind_run (get_run _), bind_run (lift_run (slice_run hs _) _)]
  have htake : s.rest.take (1 + (cs.takeWhile isWordChar).length)
      = c :: cs.takeWhile isWordChar := by
    rw [hrest, Nat.add_comm, List.take_succ_cons,
      ← List.prefix_iff_eq_take.1 (List.takeWhile_prefix _)]
  rw [htake, Lexeme.word]
  cases Keyword.ofSpelling? (String.ofList (c :: cs.takeWhile isWordChar)) with
  | some k => simp [Nat.add_comm]; rfl
  | none => simp [Nat.add_comm]; rfl

/-- A number, in whatever way it is written. -/
theorem number_finds (hs : s.Sound) (hrest : s.rest = c :: cs) :
    Finds (do number c; return (.number, none)) s
      ⟨.number, numberExtent c cs, none⟩ := by
  have hrest' : (s.past 1).rest = cs := by simp [hrest]
  unfold Finds
  rw [bind_run (number_run (hs.past 1) c), hrest', past_past, Nat.add_comm]
  rfl

/-- Characters that begin nothing, as far as they go. -/
theorem stray_finds (hs : s.Sound) (hrest : s.rest = c :: cs) :
    Finds (do
      forText (skipWhile (fun next => !endsStray next))
      return (.invalid, some (.unexpectedCharacter c))) s
      (Lexeme.stray c cs) := by
  have hrest' : (s.past 1).rest = cs := by simp [hrest]
  unfold Finds
  rw [bind_run (forText_skipWhile_run (hs.past 1) _), hrest', past_past,
    Nat.add_comm]
  rfl

/-- **A scan finds the token at the front of what is left.** -/
theorem tokenFrom_run (hs : s.Sound) (hrest : s.rest = c :: cs) :
    (tokenFrom s.position.offset).run s.cursor
      = .ok (((Lexeme.atFront
          (s.previous.any TokenKind.canEndExpression) c cs).kind,
        (Lexeme.atFront
          (s.previous.any TokenKind.canEndExpression) c cs).error),
        (s.past ((Lexeme.atFront
          (s.previous.any TokenKind.canEndExpression) c cs).extent
            + 1)).cursor) := by
  unfold tokenFrom
  rw [bind_run (advance_run hs hrest)]
  generalize hdivides : s.previous.any TokenKind.canEndExpression = divides
  split
  case h_15 => exact assign_finds hs hrest
  case h_16 => exact either_finds hs hrest (by decide) (by decide) (by decide)
  case h_17 => exact either_finds hs hrest (by decide) (by decide) (by decide)
  case h_18 => exact longer_finds hs hrest (by decide) (by decide)
  case h_19 => exact not_finds hs hrest
  case h_20 => exact either_finds hs hrest (by decide) (by decide) (by decide)
  case h_21 => exact either_finds hs hrest (by decide) (by decide) (by decide)
  case h_22 => exact longer_finds hs hrest (by decide) (by decide)
  case h_23 => exact longer_finds hs hrest (by decide) (by decide)
  case h_24 => exact hdivides ▸ slash_finds hs hrest
  case h_25 =>
    rw [Lexeme.atFront_of_ne_slash _ (by decide), longest?_cons,
      (by decide : behind '"' = [])]
    exact string_finds hs hrest (by decide)
  case h_26 =>
    rw [Lexeme.atFront_of_ne_slash _ (by decide), longest?_cons,
      (by decide : behind '\x27' = [])]
    exact string_finds hs hrest (by decide)
  case h_27 =>
    rw [Lexeme.atFront_of_ne_slash _ (by decide), longest?_cons,
      (by decide : behind '\x60' = [])]
    exact template_finds hs hrest
  case h_28 =>
    have hmark : c ∉ Punctuator.firsts := by
      simp only [Punctuator.firsts, List.mem_cons, List.not_mem_nil,
        or_false, not_or]
      and_intros <;> assumption
    have hfront : Lexeme.atFront divides c cs
        = if c.isDigit then ⟨.number, numberExtent c cs, none⟩
          else if isWordStart c then Lexeme.word c cs
          else Lexeme.stray c cs := by
      rw [Lexeme.atFront_of_ne_slash _ ‹c = '/' → False›, longest?_cons,
        Punctuator.behind_eq_nil hmark]
      simp only [List.find?_nil, Option.map_none, Bool.or_eq_true,
        decide_eq_true_eq]
      rw [if_neg (not_or.2 ⟨‹c = '"' → False›, ‹c = '\x27' → False›⟩),
        if_neg ‹c = '\x60' → False›]
    rw [hfront]
    by_cases hdigit : c.isDigit = true
    · rw [if_pos hdigit, if_pos hdigit]
      exact number_finds hs hrest
    · rw [if_neg hdigit, if_neg hdigit]
      split
      · exact word_finds hs hrest
      · exact stray_finds hs hrest
  all_goals exact mark_finds (by decide) (by decide)

end Marks
end Scan

end ScriptTree
