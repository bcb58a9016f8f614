import ScriptTree.Proofs.Token.Context
import ScriptTree.Proofs.Token.Delimiter

/-!
# The delimited tokens of a text

Each token of a stream is the lexeme at its place (`tokens_lexeme`), and a
lexeme is of one of a few classes (`Lexeme.Class`). For the classes with a
delimiter of their own, the grammar of delimited texts says what the token
is.

If the text at the token's place has a front that is delimited as the
token's kind asks for, the token is this front, with its flags if it is a
regular expression, and nothing is wrong with it; otherwise something is
(`tokens_delimited`). A token without an end goes on to the end of a line
(`tokens_unterminated`). It is the end of the line where the token begins,
with one exception: the items of a string may be escaped line breaks, and
these the token passes.
-/

namespace ScriptTree

/-- **A token with a delimiter of its own**: a string, a template, a regular
expression, or a comment that is not just the rest of its line. -/
def Token.isDelimited (t : Token) : Bool :=
  match t.kind with
  | .string | .template | .regex => true
  | .comment => ['/', '*'].isPrefixOf t.text.toList
  | _ => false

/-! ## Texts with an end -/

/-- **The flags behind a delimited text**: lower-case letters, if it is a
regular expression. -/
def TokenKind.flags (kind : TokenKind) (behind : List Char) : List Char :=
  if kind = .regex then behind.takeWhile Char.isLower else []

theorem TokenKind.flags_prefix (kind : TokenKind) (behind : List Char) :
    kind.flags behind <+: behind := by
  unfold flags
  split
  · exact List.takeWhile_prefix _
  · exact List.nil_prefix

namespace Lexeme

variable {c : Char} {cs : List Char}

/-- **A lexeme that is a delimited text**, if there is one at the front of
its text. -/
structure Exact (lexeme : Lexeme) (text : List Char) : Prop where
  /-- If nothing is wrong with it, there is one. -/
  found : lexeme.error = none → ∃ w, w <+: text ∧ Delimited lexeme.kind w
  /-- If there is one, nothing is wrong, and it has as many characters, and
  as many as there are flags. -/
  finds : ∀ w behind, text = w ++ behind → Delimited lexeme.kind w →
    lexeme.error = none
      ∧ lexeme.extent + 1 = w.length + (lexeme.kind.flags behind).length

/-- **What is cut off for an exact lexeme** is the delimited text and its
flags. -/
theorem Exact.take_eq {lexeme : Lexeme} {text w behind : List Char}
    (h : lexeme.Exact text) (htext : text = w ++ behind)
    (hw : Delimited lexeme.kind w) :
    text.take (lexeme.extent + 1) = w ++ lexeme.kind.flags behind := by
  rw [(h.finds w behind htext hw).2, htext, List.take_length_add_append]
  rw [← List.prefix_iff_eq_take.1 (lexeme.kind.flags_prefix behind)]

/-- **A string** is exact. -/
theorem string_exact (hc : c = '"' ∨ c = '\x27') :
    (string c cs).Exact (c :: cs) where
  found herror := by
    obtain ⟨items, behind, rfl, hitems, -⟩ :=
      exists_of_stringExtent (Prod.ext rfl herror)
    exact ⟨_, ⟨behind, by simp⟩, .string hc hitems⟩
  finds w behind heq hw := by
    cases hw with
    | string _ hitems =>
      simp only [List.cons_append, List.append_assoc, List.nil_append,
        List.cons.injEq] at heq
      obtain ⟨rfl, rfl⟩ := heq
      have hline : c ≠ '\n' := by
        rcases hc with rfl | rfl <;> decide
      simp [string, hitems.stringExtent (ne_backslash_of_quote hc) hline,
        TokenKind.flags]

/-- **A template** is exact. -/
theorem template_exact : (template cs).Exact ('\x60' :: cs) where
  found herror := by
    unfold template at herror
    split at herror
    · rename_i m hfound
      obtain ⟨items, behind, rfl, hitems, -⟩ := exists_of_templateExtent? hfound
      rw [template_kind]
      exact ⟨_, ⟨behind, by simp⟩, .template hitems⟩
    · exact nomatch herror
  finds w behind heq hw := by
    rw [template_kind] at hw ⊢
    cases hw with
    | template hitems =>
      simp only [List.cons_append, List.append_assoc, List.nil_append,
        List.cons.injEq, true_and] at heq
      subst heq
      simp [template, hitems.templateExtent?, TokenKind.flags]

/-- **A regular expression** is exact. -/
theorem regex_exact : (regex cs).Exact ('/' :: cs) where
  found herror := by
    obtain ⟨body, behind, rfl, hbody, -⟩ :=
      exists_of_regexExtent (Prod.ext rfl herror)
    exact ⟨_, ⟨behind, by simp⟩, .regex hbody⟩
  finds w behind heq hw := by
    cases hw with
    | regex hbody =>
      simp only [List.cons_append, List.append_assoc, List.nil_append,
        List.cons.injEq, true_and] at heq
      subst heq
      simp only [regex, hbody.regexExtent, TokenKind.flags, if_pos,
        List.length_cons, List.length_append, true_and, List.length_nil]
      omega

/-- **A comment with a closing mark** is exact. -/
theorem blockComment_exact :
    (blockComment cs).Exact ('/' :: '*' :: cs) where
  found herror := by
    unfold blockComment at herror
    split at herror
    · rename_i m hfound
      obtain ⟨body, behind, rfl, hbody, -⟩ := exists_of_commentExtent? hfound
      rw [blockComment_kind]
      exact ⟨_, ⟨behind, by simp⟩, .comment hbody⟩
    · exact nomatch herror
  finds w behind heq hw := by
    rw [blockComment_kind] at hw ⊢
    cases hw with
    | comment hbody =>
      simp only [List.cons_append, List.append_assoc, List.nil_append,
        List.cons.injEq, true_and] at heq
      subst heq
      simp [blockComment, commentExtent?_append hbody, TokenKind.flags]
      omega

end Lexeme

/-! ## Texts without an end -/

/-- **A piece of a text without its end**: it goes on to the end of a line,
which is the line it begins on, unless the fault is that of a string. A
string passes the line breaks that are items of it, each behind a backslash;
a backslash at the end of the text has nothing to escape. -/
structure Unended (error : LexError) (text behind : List Char) : Prop where
  /-- A line ends behind it. -/
  endsLine : EndsLine behind
  /-- It holds no line break. -/
  not_mem : error ≠ .unterminatedString → '\n' ∉ text
  /-- A string holds only such that are escaped. -/
  items : error = .unterminatedString → ∃ quote items,
    StringItems quote items ∧ (text = quote :: items
      ∨ behind = [] ∧ text = quote :: (items ++ ['\\']))

namespace Lexeme

variable {c : Char} {cs : List Char}

/-- **A lexeme without its end.** -/
theorem unended_of_class {lexeme : Lexeme} (h : lexeme.Class c cs)
    {e : LexError} (herror : lexeme.error = some e)
    (he : e.isUnterminated = true) :
    ∃ text behind, c :: cs = text ++ behind
      ∧ lexeme.extent + 1 = text.length ∧ Unended e text behind := by
  cases h with
  | lineComment => exact nomatch herror
  | @blockComment rest hc hcs =>
    unfold blockComment at herror ⊢
    split at herror
    · exact nomatch herror
    · obtain rfl := Option.some.inj herror
      obtain ⟨x, r, rfl, hr, hlength, hx⟩ := exists_of_lineExtent rest
      refine ⟨'/' :: '*' :: x, r, by rw [hc, hcs]; rfl, ?_, hr, ?_, nofun⟩
      · simp [hlength]
        omega
      · simpa using hx
  | regex hc =>
    have hregex : regexExtent false cs 0 = ((regex cs).extent, some e) :=
      Prod.ext rfl herror
    obtain rfl : e = .unterminatedRegex := by
      simpa [hregex] using regexExtent_error false cs 0
    obtain ⟨x, r, rfl, hr, hlength, hx⟩ := regexExtent_unterminated hregex
    refine ⟨'/' :: x, r, by rw [hc]; rfl, by simp [hlength], hr, ?_, nofun⟩
    simpa using hx
  | string hc =>
    have hstring : stringExtent c cs 0 = ((string c cs).extent, some e) :=
      Prod.ext rfl herror
    obtain rfl : e = .unterminatedString := by
      simpa [hstring] using stringExtent_error c cs 0
    obtain ⟨x, r, rfl, hr, hlength, hx⟩ := stringExtent_unterminated hstring
    refine ⟨c :: x, r, rfl, by simp [hlength], hr,
      fun hne => absurd rfl hne, fun _ => ?_⟩
    rcases hx with hx | ⟨hnil, items, rfl, hx⟩
    · exact ⟨c, x, hx, .inl rfl⟩
    · exact ⟨c, items, hx, .inr ⟨hnil, rfl⟩⟩
  | template hc =>
    unfold template at herror ⊢
    split at herror
    · exact nomatch herror
    · obtain rfl := Option.some.inj herror
      obtain ⟨x, r, rfl, hr, hlength, hx⟩ := exists_of_lineExtent cs
      refine ⟨'\x60' :: x, r, by rw [hc]; rfl, by simp [hlength], hr, ?_, nofun⟩
      simpa using hx
  | other _ hnone => simp [herror, he] at hnone

end Lexeme

/-! ## The tokens of a text -/

/-- **Each token is the lexeme at its place**, but for the line breaks and
the end. -/
theorem tokens_lexeme {source : List Char} {t : Token}
    (ht : t ∈ tokens source) (heof : t.isEof = false)
    (hline : t.kind ≠ .lineBreak) :
    ∃ (before : List Char) (c : Char) (cs : List Char) (lexeme : Lexeme),
      source = before ++ c :: cs ∧ lexeme.Class c cs
        ∧ t.kind = lexeme.kind ∧ t.error = lexeme.error
        ∧ t.Spells before ((c :: cs).take (lexeme.extent + 1)) := by
  obtain ⟨front, back, hstream⟩ := List.append_of_mem ht
  obtain ⟨u, place, hat, hsource, -, rfl⟩ := Scanner.exists_next_eq
    (Scanner.ofSource_at source) (Scanner.ofSource_saw source) hstream
  obtain ⟨c, cs, hrest, -, hc⟩ := Scanner.exists_settle_rest heof hline
  obtain ⟨gap, -, -, hplace⟩ := Scanner.settle_at hat
  have hread := Scanner.read_cons hrest hc
  refine ⟨place ++ gap, c, cs, _, ?_, Lexeme.atFront_class
    (u.settle.previous.any TokenKind.canEndExpression) c cs, ?_, ?_, ?_⟩
  · rw [← hrest, ← hplace.source_eq]
    exact hsource.symm
  · exact congrArg (·.1.kind) hread
  · exact congrArg (·.1.error) hread
  · rw [← hrest, Scanner.next, hread]
    exact Scanner.take_spells hplace _ _ _

theorem tokens_regular {source : List Char} {t : Token}
    (ht : t ∈ tokens source) : t.Regular := by
  obtain ⟨front, back, hstream⟩ := List.append_of_mem ht
  obtain ⟨u, -, -, -, -, rfl⟩ := Scanner.exists_next_eq
    (Scanner.ofSource_at source) (Scanner.ofSource_saw source) hstream
  exact Scanner.read_regular _

/-- A token with a delimiter of its own is exact. -/
theorem exact_of_isDelimited {t : Token} {lexeme : Lexeme} {c : Char}
    {cs before : List Char} (h : t.isDelimited = true)
    (hclass : lexeme.Class c cs) (hkind : t.kind = lexeme.kind)
    (hspells : t.Spells before ((c :: cs).take (lexeme.extent + 1))) :
    lexeme.Exact (c :: cs) := by
  unfold Token.isDelimited at h
  rw [hkind] at h
  cases hclass with
  | lineComment hc hcs =>
    subst hc hcs
    simp [hspells.text_eq, Nat.add_comm 1] at h
  | blockComment hc hcs => rw [hc, hcs]; exact Lexeme.blockComment_exact
  | regex hc => rw [hc]; exact Lexeme.regex_exact
  | string hc => exact Lexeme.string_exact hc
  | template hc => rw [hc]; exact Lexeme.template_exact
  | other hkind _ =>
    revert h hkind
    cases lexeme.kind <;> simp [TokenKind.mayFail]

/-- **Delimited tokens are delimited texts.** Nothing is wrong with such a
token exactly if the text from its place on has a front that is delimited as
the kind of the token asks for. Then the token is the shortest front of this
form, with the flags behind it if it is a regular expression. -/
theorem tokens_delimited (source : List Char) :
    ∀ t ∈ tokens source, t.isDelimited = true →
      ∃ before rest, source = before ++ rest
        ∧ t.span.start = byteLength before
        ∧ (t.error = none ↔ ∃ w, w <+: rest ∧ Delimited t.kind w)
        ∧ (t.error = none → ∃ w behind, rest = w ++ behind
          ∧ Delimited t.kind w
          ∧ (∀ v, v <+: rest → Delimited t.kind v → w <+: v)
          ∧ t.text = String.ofList (w ++ t.kind.flags behind)) := by
  intro t ht hdelimited
  obtain ⟨heof, hline⟩ : t.isEof = false ∧ t.kind ≠ .lineBreak := by
    unfold Token.isDelimited at hdelimited
    unfold Token.isEof
    cases hkind : t.kind <;> simp_all
  obtain ⟨before, c, cs, lexeme, hsource, hclass, hkind, herror, hspells⟩ :=
    tokens_lexeme ht heof hline
  have hexact := exact_of_isDelimited hdelimited hclass hkind hspells
  have hfound : t.error = none →
      ∃ w, w <+: c :: cs ∧ Delimited t.kind w := by
    rw [herror, hkind]
    exact hexact.found
  refine ⟨before, c :: cs, hsource, by rw [hspells.span_eq], ⟨hfound, ?_⟩, ?_⟩
  · rintro ⟨w, ⟨behind, heq⟩, hw⟩
    rw [hkind] at hw
    exact herror.trans (hexact.finds w behind heq.symm hw).1
  · intro hnone
    obtain ⟨w, ⟨behind, heq⟩, hw⟩ := hfound hnone
    refine ⟨w, behind, heq.symm, hw, fun v ⟨behind', heq'⟩ hv => ?_, ?_⟩
    · obtain rfl := hw.eq_of_append_eq hv (heq.trans heq'.symm)
      exact List.prefix_rfl
    · rw [hspells.text_eq, hkind, hexact.take_eq heq.symm (hkind ▸ hw)]

/-- A regular expression with a slash in brackets, one behind a backslash,
and flags. -/
theorem tokens_delimited_regex :
    let source := "=/[/]\\/x/gi;".toList
    ∃ t ∈ tokens source, t.span = ⟨1, 11⟩
      ∧ ∃ before w behind, source = before ++ (w ++ behind)
        ∧ Delimited .regex w
        ∧ t.text = String.ofList (w ++ behind.takeWhile Char.isLower) := by
  intro source
  have hmem : ⟨.regex, "/[/]\\/x/gi", ⟨1, 11⟩, ⟨1, 2, 1⟩, none⟩
      ∈ tokens source := by decide +kernel
  obtain ⟨before, rest, hsource, -, -, hends⟩ :=
    tokens_delimited source _ hmem rfl
  obtain ⟨w, behind, rfl, hw, -, htext⟩ := hends rfl
  exact ⟨_, hmem, rfl, before, w, behind, hsource, hw, htext⟩

/-- **Tokens without an end** go on to the end of a line. It is the line they
begin on, but for the line breaks that are escaped in a string. -/
theorem tokens_unterminated (source : List Char) :
    ∀ t ∈ tokens source, ∀ e, t.error = some e →
      e.isUnterminated = true →
      ∃ before text behind, source = before ++ (text ++ behind)
        ∧ t.Spells before text ∧ Unended e text behind := by
  intro t ht e herror he
  -- Nothing is wrong with a line break, nor with the end.
  obtain ⟨heof, hline⟩ : t.isEof = false ∧ t.kind ≠ .lineBreak := by
    have hfine := (tokens_regular ht).error_eq
    unfold Token.isEof
    cases hkind : t.kind <;> simp_all [TokenKind.mayFail]
  obtain ⟨before, c, cs, lexeme, rfl, hclass, hkind, herror', hspells⟩ :=
    tokens_lexeme ht heof hline
  rw [herror'] at herror
  obtain ⟨text, behind, heq, hlength, hunended⟩ :=
    Lexeme.unended_of_class hclass herror he
  rw [heq, hlength, List.take_left] at hspells
  exact ⟨before, text, behind, by rw [heq], hspells, hunended⟩

/-- The backslash in front of the line break makes it an item of the
string. -/
theorem tokens_unterminated_string :
    let source := "\"a\\\nb".toList
    ∃ t ∈ tokens source, t.error = some .unterminatedString
      ∧ ∃ before text behind, source = before ++ (text ++ behind)
        ∧ t.Spells before text
        ∧ Unended .unterminatedString text behind := by
  intro source
  have hmem : ⟨.string, "\"a\\\nb", ⟨0, 5⟩, ⟨1, 1, 0⟩,
      some .unterminatedString⟩ ∈ tokens source := by decide +kernel
  exact ⟨_, hmem, rfl, tokens_unterminated source _ hmem _ rfl rfl⟩

/-- **A token without an end may hold a line break**, and so go beyond its
first line: that of a string whose line break is escaped. -/
theorem exists_unterminated_lineBreak :
    ¬∀ (source : List Char), ∀ t ∈ tokens source, ∀ e, t.error = some e →
      e.isUnterminated = true →
      '\n' ∉ t.text.toList ∧ ∃ before behind,
        source = before ++ (t.text.toList ++ behind) ∧ EndsLine behind := by
  intro h
  have hmem : ⟨.string, "\"a\\\nb", ⟨0, 5⟩, ⟨1, 1, 0⟩,
      some .unterminatedString⟩ ∈ tokens "\"a\\\nb".toList := by
    decide +kernel
  exact absurd (h _ _ hmem _ rfl rfl).1 (by decide)

end ScriptTree
