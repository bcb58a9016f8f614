import ScriptTree.Proofs.Token.Delimited

/-!
# The form of a token

What a token's text looks like depends on its kind (`Token.HasForm`): a name
is made of the characters of names, a reserved word is spelled as it must
be, a number is made of digits, a point and the mark of hexadecimal numbers,
and a string, a template or a regular expression is a delimited text if
nothing is wrong with it. This holds of each token the scanner finds, from
whatever place it is asked to, and of a slash that is read again.
-/

namespace ScriptTree

/-- Whether a number may have the character in it. -/
def isNumberChar (c : Char) : Bool :=
  isHexDigit c || c = 'x' || c = 'X' || c = '.'

/-- Whether tokens of the kind are told by their delimiters. -/
def TokenKind.isQuoted : TokenKind → Bool
  | string | template | regex => true
  | _ => false

/-- **The form of a text** that is a token of some kind, with what is wrong
with it. -/
inductive IsForm : TokenKind → Option LexError → List Char → Prop where
  /-- A name. -/
  | identifier {w : List Char} (h : ∀ c ∈ w, isWordChar c = true) :
    IsForm .identifier none w
  /-- A reserved word. -/
  | keyword (k : Keyword) : IsForm (.keyword k) none k.spelling.toList
  /-- A number. -/
  | number {w : List Char} (h : ∀ c ∈ w, isNumberChar c = true) :
    IsForm .number none w
  /-- A text with delimiters of its own, if it has an end. -/
  | quoted {kind : TokenKind} {error : Option LexError} {w : List Char}
    (hkind : kind.isQuoted = true)
    (h : error = none → ∃ v behind, Delimited kind v
      ∧ w = v ++ kind.flags behind) : IsForm kind error w
  /-- Another token. -/
  | other {kind : TokenKind} {error : Option LexError} {w : List Char}
    (hquoted : kind.isQuoted = false) (hidentifier : kind ≠ .identifier)
    (hkeyword : ∀ k, kind ≠ .keyword k) (hnumber : kind ≠ .number) :
    IsForm kind error w

/-- **A token in form.** -/
def Token.HasForm (t : Token) : Prop := IsForm t.kind t.error t.text.toList

/-! ## Lexemes -/

section Numbers

variable {c : Char} {cs : List Char}

theorem isNumberChar_of_isHexDigit (h : isHexDigit c = true) :
    isNumberChar c = true := by
  simp [isNumberChar, h]

theorem isNumberChar_of_isDigit (h : c.isDigit = true) :
    isNumberChar c = true :=
  isNumberChar_of_isHexDigit (by simp [isHexDigit, h])

/-- The digits a text begins with. -/
theorem forall_mem_takeWhile {p : Char → Bool}
    (h : ∀ c, p c = true → isNumberChar c = true) :
    ∀ c ∈ cs.takeWhile p, isNumberChar c = true :=
  fun c hc => h c (List.all_eq_true.mp List.all_takeWhile c hc)

theorem take_hexExtent? {n : Nat} (h : hexExtent? cs = some n) :
    ∀ c ∈ cs.take n, isNumberChar c = true := by
  unfold hexExtent? at h
  split at h
  · rename_i x d rest
    split at h
    · rename_i hmark
      obtain rfl := Option.some.inj h
      rw [Nat.add_comm, List.take_succ_cons,
        ← List.prefix_iff_eq_take.1 (List.takeWhile_prefix isHexDigit)]
      refine List.forall_mem_cons.2 ⟨?_, forall_mem_takeWhile
        fun _ => isNumberChar_of_isHexDigit⟩
      simp only [Bool.and_eq_true, Bool.or_eq_true, decide_eq_true_eq] at hmark
      rcases hmark.1 with rfl | rfl <;> rfl
    · exact nomatch h
  · exact nomatch h

theorem take_decimalExtent :
    ∀ c ∈ cs.take (decimalExtent cs), isNumberChar c = true := by
  have hdigits {text : List Char} : ∀ c ∈ text.take
      (text.takeWhile Char.isDigit).length, isNumberChar c = true := by
    rw [← List.prefix_iff_eq_take.1 (List.takeWhile_prefix Char.isDigit)]
    exact forall_mem_takeWhile fun _ => isNumberChar_of_isDigit
  unfold decimalExtent
  dsimp only
  split
  · rename_i fraction hfraction
    rw [Nat.add_assoc, List.take_add, hfraction, Nat.add_comm 1,
      List.take_succ_cons]
    exact List.forall_mem_append.2
      ⟨hdigits, List.forall_mem_cons.2 ⟨rfl, hdigits⟩⟩
  · exact hdigits

/-- **A number** is made of what a number may have in it. -/
theorem take_numberExtent (hc : c.isDigit = true) :
    ∀ d ∈ (c :: cs).take (numberExtent c cs + 1), isNumberChar d = true := by
  rw [List.take_succ_cons]
  refine List.forall_mem_cons.2 ⟨isNumberChar_of_isDigit hc, ?_⟩
  unfold numberExtent
  split
  · rename_i n hn
    split at hn
    · exact take_hexExtent? hn
    · exact nomatch hn
  · exact take_decimalExtent

end Numbers

namespace Lexeme

variable {c : Char} {cs : List Char}

/-- A lexeme with delimiters is in form. -/
theorem Exact.isForm {lexeme : Lexeme} {text : List Char}
    (h : lexeme.Exact text) (hkind : lexeme.kind.isQuoted = true) :
    IsForm lexeme.kind lexeme.error (text.take (lexeme.extent + 1)) := by
  refine .quoted hkind fun herror => ?_
  obtain ⟨v, ⟨behind, hbehind⟩, hv⟩ := h.found herror
  exact ⟨v, behind, hv, h.take_eq hbehind.symm hv⟩

/-- A name or a reserved word is in form. -/
theorem word_isForm (hc : isWordStart c = true) :
    IsForm (word c cs).kind (word c cs).error
      ((c :: cs).take ((word c cs).extent + 1)) := by
  have htake : (c :: cs).take ((cs.takeWhile isWordChar).length + 1)
      = c :: cs.takeWhile isWordChar := by
    rw [List.take_succ_cons,
      ← List.prefix_iff_eq_take.1 (List.takeWhile_prefix isWordChar)]
  unfold word
  dsimp only
  split
  · rename_i k hk
    have hspelling := Keyword.ofSpelling?_eq_some_iff.1 hk
    rw [htake, ← String.toList_ofList (l := c :: _), ← hspelling]
    exact .keyword k
  · rw [htake]
    refine .identifier (List.forall_mem_cons.2 ⟨?_, ?_⟩)
    · simp only [isWordStart, isWordChar, Char.isAlphanum,
        Bool.or_eq_true] at hc ⊢
      exact hc.imp_left (·.imp_left .inl)
    · exact fun d hd => List.all_eq_true.mp List.all_takeWhile d hd

/-- **A lexeme at the front of a text** is in form. -/
theorem atFront_isForm (slashDivides : Bool) :
    IsForm (atFront slashDivides c cs).kind (atFront slashDivides c cs).error
      ((c :: cs).take ((atFront slashDivides c cs).extent + 1)) := by
  unfold atFront
  split
  · exact .other rfl nofun nofun nofun
  · rename_i rest
    refine .other ?_ ?_ ?_ ?_ <;> rw [blockComment_kind]
    · rfl
    · exact nofun
    · exact nofun
    · exact nofun
  · split
    · rename_i h
      obtain ⟨rfl, -⟩ : c = '/' ∧ slashDivides = false := by simpa using h
      exact regex_exact.isForm rfl
    split
    · exact .other rfl nofun nofun nofun
    split
    · rename_i h
      exact (string_exact (by simpa using h)).isForm rfl
    split
    · rename_i h
      subst h
      exact template_exact.isForm (by rw [template_kind]; rfl)
    split
    · exact .number (take_numberExtent (by assumption))
    split
    · exact word_isForm (by assumption)
    · exact .other rfl nofun nofun nofun

end Lexeme

/-! ## Tokens -/

namespace Scanner

variable {s : Scanner}

/-- A token that is read is in form. -/
theorem read_hasForm (s : Scanner) : s.read.1.HasForm := by
  unfold read
  split
  · exact .other rfl nofun nofun nofun
  · exact .other rfl nofun nofun nofun
  · rename_i c cs _ hrest
    have h := @Lexeme.atFront_isForm c cs
      (s.previous.any TokenKind.canEndExpression)
    unfold Token.HasForm
    rw [← String.toList_ofList (l := (c :: cs).take _)] at h
    rw [← hrest] at h
    exact h

theorem nextSignificantFrom_hasForm (s : Scanner) (found : List Token) :
    (s.nextSignificantFrom found).token.HasForm := by
  fun_induction nextSignificantFrom s found with
  | case1 s found step hextra ih => exact ih
  | case2 s found step hextra => exact read_hasForm _

/-- **The next token of the grammar** is in form. -/
theorem nextSignificant_hasForm (s : Scanner) :
    s.nextSignificant.token.HasForm :=
  nextSignificantFrom_hasForm s []

/-- **A slash read again** is in form. -/
theorem rescanRegex_hasForm {t : Token} {before cs : List Char}
    (hsource : s.source = before ++ '/' :: cs)
    (hstart : t.span.start = byteLength before) :
    (s.rescanRegex t).1.HasForm := by
  have hsplit : splitAtByte? s.source t.span.start
      = some (before, '/' :: cs) :=
    splitAtByte?_eq_some_iff.2 ⟨hsource, hstart.symm⟩
  have h : IsForm .regex (Lexeme.regex cs).error
      (String.ofList (('/' :: cs).take
        ((Lexeme.regex cs).extent + 1))).toList := by
    rw [String.toList_ofList]
    exact Lexeme.regex_exact.isForm rfl
  unfold rescanRegex
  simp only [hsplit]
  exact h

end Scanner

end ScriptTree
