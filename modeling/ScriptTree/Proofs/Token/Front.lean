import ScriptTree.Proofs.Token.Reading
import ScriptTree.Token.Significant

/-!
# What stands in front of a scanner

A scanner passes over blanks and reads what comes then. Where it stands is
said with two characters' worth of look ahead at most: it goes on where it
is if the next character matters (`Scanner.settle_eq_self`), and reads the
lexeme there if that is no line break (`Scanner.read_cons`).

The rules of the token classes count characters, and `Scanner.take` cuts a
token off by their count. No rule counts more characters than there are
(`Lexeme.atFront_extent_le`), so nothing is lost in the cutting. Nor does
any rule find fault with a name, a mark or a number: only a token with an
end of its own may be without it (`Token.Regular`).
-/

namespace ScriptTree

variable {c : Char} {cs : List Char} {m n : Nat}

theorem length_takeWhile_le (p : Char → Bool) (cs : List Char) :
    (cs.takeWhile p).length ≤ cs.length :=
  (List.takeWhile_sublist p).length_le

/-! ## Where delimited texts end -/

theorem stringExtent_le (quote : Char) (cs : List Char) (n : Nat) :
    (stringExtent quote cs n).1 ≤ n + cs.length := by
  fun_induction stringExtent quote cs n <;> simp_all <;> omega

theorem templateExtent?_le (h : templateExtent? cs n = some m) :
    m ≤ n + cs.length := by
  fun_induction templateExtent? cs n <;> grind

theorem commentExtent?_le (h : commentExtent? cs n = some m) :
    m ≤ n + cs.length := by
  fun_induction commentExtent? cs n <;> grind

theorem regexExtent_le (inClass : Bool) (cs : List Char) (n : Nat) :
    (regexExtent inClass cs n).1 ≤ n + cs.length := by
  fun_induction regexExtent inClass cs n with
  | case7 cs n =>
    have hflags := length_takeWhile_le Char.isLower cs
    simp only [List.length_cons]
    omega
  | _ => simp_all <;> omega

/-- All that can be wrong with a string is that it has no end. -/
theorem stringExtent_error (quote : Char) (cs : List Char) (n : Nat) :
    (stringExtent quote cs n).2 = none
      ∨ (stringExtent quote cs n).2 = some .unterminatedString := by
  fun_induction stringExtent quote cs n <;> simp_all

/-- All that can be wrong with a regular expression is that it has no
end. -/
theorem regexExtent_error (inClass : Bool) (cs : List Char) (n : Nat) :
    (regexExtent inClass cs n).2 = none
      ∨ (regexExtent inClass cs n).2 = some .unterminatedRegex := by
  fun_induction regexExtent inClass cs n <;> simp_all

/-! ## Where numbers end -/

theorem hexExtent?_le (h : hexExtent? cs = some m) : m ≤ cs.length := by
  unfold hexExtent? at h
  split at h
  · rename_i x d cs
    split at h
    · have hdigits := length_takeWhile_le isHexDigit (d :: cs)
      obtain rfl := Option.some.inj h
      simp only [List.length_cons] at hdigits ⊢
      omega
    · exact nomatch h
  · exact nomatch h

theorem decimalExtent_le (cs : List Char) : decimalExtent cs ≤ cs.length := by
  have hwhole := length_takeWhile_le Char.isDigit cs
  unfold decimalExtent
  dsimp only
  split
  · rename_i fraction hpoint
    have hdigits := length_takeWhile_le Char.isDigit fraction
    have hlength := congrArg List.length hpoint
    simp only [List.length_drop, List.length_cons] at hlength
    omega
  · exact hwhole

theorem numberExtent_le (first : Char) (cs : List Char) :
    numberExtent first cs ≤ cs.length := by
  unfold numberExtent
  split
  · rename_i hhex
    split at hhex
    · exact hexExtent?_le hhex
    · exact nomatch hhex
  · exact decimalExtent_le cs

/-! ## Lexemes -/

namespace Punctuator

theorem longest?_le {text : List Char} {p : Punctuator}
    (h : longest? text = some (p, n)) : n ≤ text.length := by
  obtain ⟨s, hs, hp⟩ := Option.map_eq_some_iff.1 h
  obtain ⟨-, rfl⟩ := Prod.mk.inj hp
  have hmark : s.1.isPrefixOf text = true := by
    simpa using List.find?_some hs
  exact (List.isPrefixOf_iff_prefix.1 hmark).length_le

end Punctuator

namespace Lexeme

theorem lineExtent_le (cs : List Char) : lineExtent cs ≤ cs.length :=
  length_takeWhile_le _ cs

theorem blockComment_extent_le (cs : List Char) :
    (blockComment cs).extent ≤ cs.length + 1 := by
  unfold blockComment
  split
  · rename_i n hn
    have hle := commentExtent?_le hn
    exact Nat.le_trans hle (Nat.le_of_eq (Nat.add_comm 1 _))
  · have hle := lineExtent_le cs
    dsimp only
    omega

theorem template_extent_le (cs : List Char) :
    (template cs).extent ≤ cs.length := by
  unfold template
  split
  · rename_i n hn
    have hle := templateExtent?_le hn
    rwa [Nat.zero_add] at hle
  · exact lineExtent_le cs

theorem word_extent_le (c : Char) (cs : List Char) :
    (word c cs).extent ≤ cs.length := by
  have hle := length_takeWhile_le isWordChar cs
  unfold word
  dsimp only
  split <;> exact hle

/-- **A lexeme lies in its text.** -/
theorem atFront_extent_le (slashDivides : Bool) (c : Char)
    (cs : List Char) : (atFront slashDivides c cs).extent ≤ cs.length := by
  unfold atFront
  split
  · rename_i rest
    have hle := lineExtent_le rest
    simp only [List.length_cons]
    omega
  · exact blockComment_extent_le _
  · split
    · exact Nat.le_trans (regexExtent_le false _ 0)
        (Nat.le_of_eq (Nat.zero_add _))
    split
    · rename_i p n hmark
      have hle := Punctuator.longest?_le hmark
      simp only [List.length_cons] at hle
      dsimp only
      omega
    split
    · exact Nat.le_trans (stringExtent_le _ _ 0) (Nat.le_of_eq (Nat.zero_add _))
    split
    · exact template_extent_le _
    split
    · exact numberExtent_le _ _
    split
    · exact word_extent_le _ _
    · exact length_takeWhile_le _ _

end Lexeme

/-! ## What is wrong with a lexeme -/

/-- Whether something may be wrong with tokens of the kind. -/
def TokenKind.mayFail : TokenKind → Bool
  | string | template | regex | comment | invalid => true
  | _ => false

theorem Punctuator.take_of_longest? {text : List Char} {p : Punctuator}
    (h : longest? text = some (p, n)) :
    0 < n ∧ text.take n = p.spelling.toList := by
  obtain ⟨s, hs, hp⟩ := Option.map_eq_some_iff.1 h
  obtain ⟨rfl, rfl⟩ := Prod.mk.inj hp
  have hmark : s.1.isPrefixOf text = true := by
    simpa using List.find?_some hs
  obtain ⟨p, -, rfl⟩ := List.mem_map.1 (List.mem_of_find?_eq_some hs)
  refine ⟨?_, ?_⟩
  · cases p <;> decide
  · exact (List.prefix_iff_eq_take.1
      (List.isPrefixOf_iff_prefix.1 hmark)).symm

namespace Lexeme

/-- **A lexeme as the rules make it**, at the front of a text. -/
structure Regular (lexeme : Lexeme) (text : List Char) : Prop where
  /-- Something is wrong with it only if it has an end to be found. -/
  error_eq : lexeme.kind.mayFail = false → lexeme.error = none
  /-- A mark is spelled as it must be. -/
  take_eq : ∀ p, lexeme.kind = .punctuator p →
    text.take (lexeme.extent + 1) = p.spelling.toList

theorem Regular.of_mayFail {lexeme : Lexeme} {text : List Char}
    (h : lexeme.kind.mayFail = true) : lexeme.Regular text := by
  refine ⟨fun hnot => absurd (h.symm.trans hnot) Bool.noConfusion, ?_⟩
  intro p hp
  rw [hp] at h
  exact nomatch h

/-- **A lexeme at the front of a text** is as the rules make it. -/
theorem atFront_regular (slashDivides : Bool) (c : Char)
    (cs : List Char) : (atFront slashDivides c cs).Regular (c :: cs) := by
  unfold atFront
  split
  · exact .of_mayFail rfl
  · exact .of_mayFail (congrArg TokenKind.mayFail (blockComment_kind _))
  · split
    · exact .of_mayFail rfl
    split
    · rename_i p n hmark
      obtain ⟨hpos, htake⟩ := Punctuator.take_of_longest? hmark
      refine ⟨fun _ => rfl, fun q hq => ?_⟩
      cases hq
      rw [show n - 1 + 1 = n by omega]
      exact htake
    split
    · exact .of_mayFail rfl
    split
    · exact .of_mayFail (congrArg TokenKind.mayFail (template_kind _))
    split
    · exact ⟨fun _ => rfl, fun _ h => nomatch h⟩
    split
    · unfold word
      dsimp only
      split <;> exact ⟨fun _ => rfl, fun _ h => nomatch h⟩
    · exact .of_mayFail rfl

end Lexeme

/-! ## Classes of lexemes -/

/-- Whether a token with the fault is a text without its end. -/
def LexError.isUnterminated : LexError → Bool
  | unexpectedCharacter _ => false
  | _ => true

/-- **The class of a lexeme** at the front of a text that begins with `c` and
goes on with `cs`. -/
inductive Lexeme.Class (c : Char) (cs : List Char) : Lexeme → Prop where
  /-- Two slashes begin a comment up to the end of the line. -/
  | lineComment {rest : List Char} (hc : c = '/') (hcs : cs = '/' :: rest) :
      Class c cs ⟨.comment, 1 + lineExtent rest, none⟩
  /-- A slash and a star begin a comment up to its closing mark. -/
  | blockComment {rest : List Char} (hc : c = '/') (hcs : cs = '*' :: rest) :
      Class c cs (Lexeme.blockComment rest)
  /-- A slash alone may begin a regular expression. -/
  | regex (hc : c = '/') : Class c cs (Lexeme.regex cs)
  /-- A quote begins a string. -/
  | string (hc : c = '"' ∨ c = '\x27') : Class c cs (Lexeme.string c cs)
  /-- A back quote begins a template. -/
  | template (hc : c = '\x60') : Class c cs (Lexeme.template cs)
  /-- Other lexemes have no delimiter, and need none. -/
  | other {lexeme : Lexeme}
      (hkind : lexeme.kind.mayFail = false ∨ lexeme.kind = .invalid)
      (herror : lexeme.error.any LexError.isUnterminated = false) :
      Class c cs lexeme

namespace Lexeme

/-- **Each lexeme** is of one class. -/
theorem atFront_class (slashDivides : Bool) (c : Char) (cs : List Char) :
    Class c cs (atFront slashDivides c cs) := by
  unfold atFront
  split
  · exact .lineComment rfl rfl
  · exact .blockComment rfl rfl
  · split
    · rename_i h
      simp only [Bool.and_eq_true, decide_eq_true_eq] at h
      exact .regex h.1
    split
    · exact .other (.inl rfl) rfl
    split
    · rename_i h
      exact .string (by simpa using h)
    split
    · exact .template (by assumption)
    split
    · exact .other (.inl rfl) rfl
    split
    · unfold word
      dsimp only
      split <;> exact .other (.inl rfl) rfl
    · exact .other (.inr rfl) rfl

/-- A lexeme that is a regular expression is what is found behind a
slash. -/
theorem Class.of_regex {lexeme : Lexeme} (h : lexeme.Class c cs)
    (hkind : lexeme.kind = .regex) :
    c = '/' ∧ lexeme = Lexeme.regex cs := by
  cases h with
  | regex hc => exact ⟨hc, rfl⟩
  | lineComment | string => exact nomatch hkind
  | blockComment => simp at hkind
  | template => simp at hkind
  | other hother => simp [hkind, TokenKind.mayFail] at hother

end Lexeme

/-! ## Tokens as they are made -/

/-- **A token as the scanner makes it.** -/
structure Token.Regular (t : Token) : Prop where
  /-- Something is wrong with it only if it has an end to be found. -/
  error_eq : t.kind.mayFail = false → t.error = none
  /-- A mark is spelled as it must be. -/
  text_eq : ∀ p, t.kind = .punctuator p → t.text = p.spelling

/-- **A regular expression cut off** from a text: the token is what is found
behind a slash, and the text behind it is left. -/
def Token.CutsRegex (t : Token) (rest : List Char) : Prop :=
  ∃ cs : List Char,
    t.text = String.ofList ('/' :: cs.take (Lexeme.regex cs).extent)
    ∧ rest = cs.drop (Lexeme.regex cs).extent

/-! ## The scanner in front of it -/

namespace Scanner

variable {s : Scanner}

/-- The scanner past some characters. -/
def past (s : Scanner) (n : Nat) : Scanner :=
  { s with
    position := s.position.advanceBy (s.rest.take n)
    rest := s.rest.drop n }

@[simp] theorem past_rest (s : Scanner) (n : Nat) :
    (s.past n).rest = s.rest.drop n := rfl

@[simp] theorem past_zero (s : Scanner) : s.past 0 = s := rfl

@[simp] theorem past_past (s : Scanner) (m n : Nat) :
    (s.past m).past n = s.past (m + n) := by
  simp only [past, List.drop_drop, List.take_add, Position.advanceBy_append]

/-- The scanner stays where it is before a character that matters. -/
theorem settle_eq_self (h : ∀ c ∈ s.rest.head?, isBlank c = false
    ∧ (c = '\n' → s.breakMatters s.rest.tail = true)) : s.settle = s := by
  have hskip : skipBlanks s.breakMatters s.position s.rest
      = (s.position, s.rest) := by
    cases hrest : s.rest with
    | nil => rfl
    | cons c cs =>
      obtain ⟨hblank, hline⟩ := h c (by rw [hrest]; rfl)
      rw [hrest, List.tail_cons] at hline
      rw [skipBlanks, if_neg]
      rw [hblank, Bool.false_or, Bool.and_eq_true, decide_eq_true_eq,
        Bool.not_eq_true', not_and, Bool.not_eq_false]
      exact hline
  unfold settle
  rw [hskip]

/-- At the end of the text the scanner finds just that. -/
theorem next_of_rest (h : s.rest = []) : s.next = s.take .eof 0 none := by
  unfold next read
  rw [settle_eq_self (by simp [h]), h]

/-- What the scanner passes over may be passed over before. -/
theorem settle_past_one (hrest : s.rest = c :: cs)
    (h : (isBlank c || (c = '\n' && !s.breakMatters cs)) = true) :
    (s.past 1).settle = s.settle := by
  have hskip : skipBlanks s.breakMatters s.position s.rest
      = skipBlanks s.breakMatters (s.position.advance c) cs := by
    rw [hrest, skipBlanks, if_pos h]
  have hpast : s.past 1
      = { s with position := s.position.advance c, rest := cs } := by
    simp [past, hrest]
  unfold settle
  rw [hskip, hpast]
  rfl

/-- The token at the front of what is left, unless that is a line break. -/
theorem read_cons (hrest : s.rest = c :: cs) (hc : c ≠ '\n') :
    let lexeme :=
      Lexeme.atFront (s.previous.any TokenKind.canEndExpression) c cs
    s.read = ((s.take lexeme.kind (lexeme.extent + 1) lexeme.error).1,
      (s.past (lexeme.extent + 1)).remember lexeme.kind) := by
  unfold read
  split
  · simp_all
  · rename_i h
    exact absurd (List.cons.inj (hrest.symm.trans h)).1 hc
  · rename_i h
    obtain ⟨rfl, rfl⟩ := List.cons.inj (hrest.symm.trans h)
    rfl

theorem read_regular (s : Scanner) : s.read.1.Regular := by
  unfold read
  split
  · exact ⟨fun _ => rfl, fun _ h => nomatch h⟩
  · exact ⟨fun _ => rfl, fun _ h => nomatch h⟩
  · rename_i c cs _ hrest
    have h := Lexeme.atFront_regular
      (s.previous.any TokenKind.canEndExpression) c cs
    refine ⟨h.error_eq, fun p hp => ?_⟩
    show String.ofList (s.rest.take _) = _
    rw [hrest, h.take_eq p hp, String.ofList_toList]

/-- A regular expression that is read is cut off from the text. -/
theorem read_cutsRegex (h : s.read.1.kind = .regex) :
    s.read.1.CutsRegex s.read.2.rest := by
  unfold read at h ⊢
  split
  · rename_i hrest
    simp [hrest] at h
  · rename_i hrest
    simp [hrest] at h
  · rename_i c cs _ hrest
    have hclass := Lexeme.atFront_class
      (s.previous.any TokenKind.canEndExpression) c cs
    simp only [hrest, take_kind] at h
    obtain ⟨rfl, hregex⟩ := hclass.of_regex h
    refine ⟨cs, ?_, ?_⟩
    · show String.ofList (s.rest.take _) = _
      rw [hregex, hrest, List.take_succ_cons]
    · rw [remember_rest, take_rest, hregex, hrest, List.drop_succ_cons]

/-- **A slash read again** is cut off from the text behind the slash. -/
theorem rescanRegex_cutsRegex {t : Token} {before : List Char}
    (hsource : s.source = before ++ '/' :: cs)
    (hstart : t.span.start = byteLength before) :
    (s.rescanRegex t).1.CutsRegex (s.rescanRegex t).2.rest := by
  have hsplit : splitAtByte? s.source t.span.start
      = some (before, '/' :: cs) :=
    splitAtByte?_eq_some_iff.2 ⟨hsource, hstart.symm⟩
  unfold rescanRegex
  simp only [hsplit]
  exact ⟨cs, by simp [take], by simp⟩

theorem nextSignificantFrom_cutsRegex (s : Scanner) (found : List Token)
    (h : (s.nextSignificantFrom found).token.kind = .regex) :
    (s.nextSignificantFrom found).token.CutsRegex
      (s.nextSignificantFrom found).scanner.rest := by
  fun_induction nextSignificantFrom s found with
  | case1 s found step hextra ih => exact ih h
  | case2 s found step hextra => exact read_cutsRegex h

theorem nextSignificantFrom_regular (s : Scanner) (found : List Token) :
    (s.nextSignificantFrom found).token.Regular := by
  fun_induction nextSignificantFrom s found with
  | case1 s found step hextra ih => exact ih
  | case2 s found step hextra => exact read_regular _

/-- **The next token of the grammar** is as the scanner makes tokens. -/
theorem nextSignificant_regular (s : Scanner) :
    s.nextSignificant.token.Regular :=
  nextSignificantFrom_regular s []

theorem nextSignificant_cutsRegex (s : Scanner)
    (h : s.nextSignificant.token.kind = .regex) :
    s.nextSignificant.token.CutsRegex s.nextSignificant.scanner.rest :=
  nextSignificantFrom_cutsRegex s [] h

/-- What is left behind blanks does not begin with one. -/
theorem skipBlanks_head {matters : List Char → Bool} {p : Position}
    {text : List Char} (h : (skipBlanks matters p text).2 = c :: cs) :
    isBlank c = false := by
  fun_induction skipBlanks matters p text with
  | case1 => exact nomatch h
  | case2 p d ds hd ih => exact ih h
  | case3 p d ds hd =>
    obtain ⟨rfl, -⟩ := List.cons.inj h
    simp only [Bool.or_eq_true, not_or, Bool.not_eq_true] at hd
    exact hd.1

/-- **A next token that is neither the end of the text nor a line break**
begins with a character that is neither blank nor a line break. -/
theorem exists_settle_rest (heof : s.next.1.isEof = false)
    (hline : s.next.1.kind ≠ .lineBreak) :
    ∃ c cs, s.settle.rest = c :: cs ∧ isBlank c = false ∧ c ≠ '\n' := by
  cases hrest : s.settle.rest with
  | nil =>
    have hkind : s.next.1.kind = .eof := by
      unfold next read
      simp only [hrest, take_kind]
    simp [Token.isEof, hkind] at heof
  | cons c cs =>
    refine ⟨c, cs, rfl, skipBlanks_head hrest, ?_⟩
    rintro rfl
    refine hline ?_
    unfold next read
    simp only [hrest, take_kind]

/-- The scanner stands in front of a text, with at most one space before
it. -/
def Before (s : Scanner) (text : List Char) : Prop :=
  s.rest = text ∨ s.rest = ' ' :: text

theorem Before.settle {c : Char} {cs : List Char} (h : s.Before (c :: cs))
    (hblank : isBlank c = false) (hc : c ≠ '\n') :
    s.settle.rest = c :: cs ∧ s.settle.previous = s.previous := by
  have hself {t : Scanner} (ht : t.rest = c :: cs) : t.settle = t := by
    refine settle_eq_self (fun d hd => ?_)
    rw [ht] at hd
    obtain rfl : c = d := Option.some.inj hd
    exact ⟨hblank, fun h => absurd h hc⟩
  rcases h with h | h
  · rw [hself h]
    exact ⟨h, rfl⟩
  · have hpast : (s.past 1).rest = c :: cs := by simp [h]
    rw [← settle_past_one h rfl, hself hpast]
    exact ⟨hpast, rfl⟩

end Scanner

end ScriptTree
