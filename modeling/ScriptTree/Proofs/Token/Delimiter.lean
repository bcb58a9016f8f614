import ScriptTree.Proofs.Token.Locality

/-!
# The grammar of delimited texts

Strings, templates, regular expressions and comments end with a delimiter of
their own, and what may stand in front of it can be said as a grammar, with
no account of how it is looked for: `StringItems`, `TemplateItems`,
`RegexBody`, and for comments that the closing mark is the first one. A text
that is delimited as its kind asks for is `Delimited`.

The rules of the scanner count characters instead. One lemma for each rule
says what it finds: a body of the grammar with the delimiter behind it, or
that there is none, and then how far it goes; and one says that where there
is such a body, the rule finds it. No text is delimited in two ways
(`Delimited.eq_of_append_eq`), so that what a rule finds is all there is.
-/

namespace ScriptTree

/-! ## What may stand between the delimiters -/

/-- **The items of a string**: a backslash with the character behind it,
whatever that is, or a character that is no backslash, no quote of the
string and no line break. -/
inductive StringItems (quote : Char) : List Char → Prop where
  | nil : StringItems quote []
  | escape (c : Char) {cs : List Char} :
      StringItems quote cs → StringItems quote ('\\' :: c :: cs)
  | plain {c : Char} {cs : List Char} (hquote : c ≠ quote)
      (hback : c ≠ '\\') (hline : c ≠ '\n') :
      StringItems quote cs → StringItems quote (c :: cs)

/-- **The items of a template**: a backslash with the character behind it,
or a character that is neither a backslash nor a back quote. -/
inductive TemplateItems : List Char → Prop where
  | nil : TemplateItems []
  | escape (c : Char) {cs : List Char} :
      TemplateItems cs → TemplateItems ('\\' :: c :: cs)
  | plain {c : Char} {cs : List Char} (hquote : c ≠ '\x60')
      (hback : c ≠ '\\') : TemplateItems cs → TemplateItems (c :: cs)

/-- **The body of a regular expression**, from inside square brackets or
from outside them on, and to the outside in the end. No line break is in it,
and a slash is only where a backslash precedes it or inside brackets. -/
inductive RegexBody : (inClass : Bool) → List Char → Prop where
  | nil : RegexBody false []
  | escape {inClass : Bool} {c : Char} {cs : List Char} (hline : c ≠ '\n') :
      RegexBody inClass cs → RegexBody inClass ('\\' :: c :: cs)
  | opens {inClass : Bool} {cs : List Char} :
      RegexBody true cs → RegexBody inClass ('[' :: cs)
  | closes {inClass : Bool} {cs : List Char} :
      RegexBody false cs → RegexBody inClass (']' :: cs)
  | plain {inClass : Bool} {c : Char} {cs : List Char} (hline : c ≠ '\n')
      (hback : c ≠ '\\') (hopen : c ≠ '[') (hclose : c ≠ ']')
      (hslash : c = '/' → inClass = true) :
      RegexBody inClass cs → RegexBody inClass (c :: cs)

/-- **A text with the delimiters of its kind** and nothing behind them. -/
inductive Delimited : TokenKind → List Char → Prop where
  | string {quote : Char} {items : List Char}
      (hquote : quote = '"' ∨ quote = '\x27') (h : StringItems quote items) :
      Delimited .string (quote :: (items ++ [quote]))
  | template {items : List Char} (h : TemplateItems items) :
      Delimited .template ('\x60' :: (items ++ ['\x60']))
  | regex {body : List Char} (h : RegexBody false body) :
      Delimited .regex ('/' :: (body ++ ['/']))
  | comment {body : List Char} (h : ¬['*', '/'] <:+: body) :
      Delimited .comment ('/' :: '*' :: (body ++ ['*', '/']))

/-- **A place where a line ends**: before a line break, or where the text
ends. -/
def EndsLine (behind : List Char) : Prop :=
  ∀ c ∈ behind.head?, c = '\n'

theorem endsLine_nil : EndsLine [] := fun _ h => absurd h (by simp)

theorem endsLine_lineBreak (cs : List Char) : EndsLine ('\n' :: cs) :=
  fun _ h => (Option.some.inj h).symm

variable {quote : Char} {inClass : Bool} {cs x y r s : List Char} {n : Nat}

/-! ## No text is delimited in two ways -/

theorem StringItems.eq_of_append_eq (hback : quote ≠ '\\')
    (hx : StringItems quote x) (hy : StringItems quote y)
    (h : x ++ quote :: r = y ++ quote :: s) : x = y := by
  induction hx generalizing y with
  | nil => cases hy <;> grind
  | escape c _ ih => cases hy <;> grind
  | plain _ _ _ _ ih => cases hy <;> grind

theorem TemplateItems.eq_of_append_eq (hx : TemplateItems x)
    (hy : TemplateItems y) (h : x ++ '\x60' :: r = y ++ '\x60' :: s) :
    x = y := by
  induction hx generalizing y with
  | nil => cases hy <;> grind
  | escape c _ ih => cases hy <;> grind
  | plain _ _ _ ih => cases hy <;> grind

theorem RegexBody.eq_of_append_eq (hx : RegexBody inClass x)
    (hy : RegexBody inClass y) (h : x ++ '/' :: r = y ++ '/' :: s) :
    x = y := by
  induction hx generalizing y with
  | nil => cases hy <;> grind
  | escape _ _ ih => cases hy <;> grind
  | opens _ ih => cases hy <;> grind
  | closes _ ih => cases hy <;> grind
  | plain _ _ _ _ _ _ ih => cases hy <;> grind

/-- A comment ends with the first closing mark. -/
theorem commentBody_eq_of_append_eq (hx : ¬['*', '/'] <:+: x)
    (hy : ¬['*', '/'] <:+: y)
    (h : x ++ '*' :: '/' :: r = y ++ '*' :: '/' :: s) : x = y := by
  -- The longer body would go on with the mark, or with its second half.
  have hmark {x y r s : List Char} (hy : ¬['*', '/'] <:+: y)
      (h : ∃ z, y = x ++ z ∧ '*' :: '/' :: r = z ++ '*' :: '/' :: s) :
      x = y := by
    obtain ⟨z, rfl, hz⟩ := h
    match z with
    | [] => exact (List.append_nil x).symm
    | [c] => simp at hz
    | c :: d :: z =>
      simp only [List.cons_append, List.cons.injEq] at hz
      obtain ⟨rfl, rfl, -⟩ := hz
      exact absurd ⟨x, z, by simp⟩ hy
  rcases List.append_eq_append_iff.1 h with hz | hz
  · exact hmark hy hz
  · exact (hmark hx hz).symm

theorem ne_backslash_of_quote (h : quote = '"' ∨ quote = '\x27') :
    quote ≠ '\\' := by
  rcases h with rfl | rfl <;> decide

/-- **No text is delimited in two ways** from its front on. -/
theorem Delimited.eq_of_append_eq {kind : TokenKind} {w v : List Char}
    (hw : Delimited kind w) (hv : Delimited kind v) (h : w ++ r = v ++ s) :
    w = v := by
  cases hw with
  | string hquote hx =>
    cases hv with
    | string _ hy =>
      simp only [List.cons_append, List.append_assoc, List.cons.injEq,
        List.nil_append] at h
      obtain ⟨rfl, h⟩ := h
      rw [hx.eq_of_append_eq (ne_backslash_of_quote hquote) hy h]
  | template hx =>
    cases hv with
    | template hy =>
      simp only [List.cons_append, List.append_assoc, List.cons.injEq,
        List.nil_append, true_and] at h
      rw [hx.eq_of_append_eq hy h]
  | regex hx =>
    cases hv with
    | regex hy =>
      simp only [List.cons_append, List.append_assoc, List.cons.injEq,
        List.nil_append, true_and] at h
      rw [hx.eq_of_append_eq hy h]
  | comment hx =>
    cases hv with
    | comment hy =>
      simp only [List.cons_append, List.append_assoc, List.cons.injEq,
        List.nil_append, true_and] at h
      rw [commentBody_eq_of_append_eq hx hy h]

/-! ## What the rules find -/

/-- **A string**: items and the quote behind them are found. -/
theorem StringItems.stringExtent (hback : quote ≠ '\\')
    (hline : quote ≠ '\n') (h : StringItems quote x) (r : List Char)
    (n : Nat) :
    stringExtent quote (x ++ quote :: r) n = (n + x.length + 1, none) := by
  induction h generalizing n with
  | nil =>
    rw [List.nil_append, ScriptTree.stringExtent]
    · exact if_pos rfl
    · exact hline
    · exact fun _ _ h _ => hback h
  | escape c _ ih =>
    rw [List.cons_append, List.cons_append, ScriptTree.stringExtent, ih]
    simp only [List.length_cons]
    congr 1
    omega
  | plain hquote hback hline _ ih =>
    rw [List.cons_append, ScriptTree.stringExtent, if_neg hquote, ih]
    · simp only [List.length_cons]
      congr 1
      omega
    · exact hline
    · exact fun _ _ h _ => hback h

/-- **The rule for strings finds** nothing else. -/
theorem exists_of_stringExtent {m : Nat}
    (h : stringExtent quote cs n = (m, none)) :
    ∃ x r, cs = x ++ quote :: r ∧ StringItems quote x
      ∧ m = n + x.length + 1 := by
  fun_induction stringExtent quote cs n with
  | case1 n | case2 cs n => simp at h
  | case3 c cs n ih =>
    obtain ⟨x, r, rfl, hx, rfl⟩ := ih h
    exact ⟨'\\' :: c :: x, r, rfl, hx.escape c, by simp; omega⟩
  | case4 cs n _ _ =>
    exact ⟨[], cs, rfl, .nil, (Prod.mk.inj h).1.symm⟩
  | case5 c cs n hline hescape hc ih =>
    obtain ⟨x, r, rfl, hx, rfl⟩ := ih h
    refine ⟨c :: x, r, rfl, hx.plain hc ?_ hline, by simp; omega⟩
    rintro rfl
    cases x with
    | nil => exact hescape _ _ rfl rfl
    | cons d x => exact hescape _ _ rfl rfl

/-- **A string without an end** is items up to the end of a line. A backslash
may be the last character of the text, and then it comes behind them. -/
theorem stringExtent_unterminated {m : Nat} {e : LexError}
    (h : stringExtent quote cs n = (m, some e)) :
    ∃ x r, cs = x ++ r ∧ EndsLine r ∧ m = n + x.length
      ∧ (StringItems quote x
        ∨ r = [] ∧ ∃ items, x = items ++ ['\\'] ∧ StringItems quote items) := by
  fun_induction stringExtent quote cs n with
  | case1 n =>
    exact ⟨[], [], rfl, endsLine_nil, (Prod.mk.inj h).1.symm, .inl .nil⟩
  | case2 cs n =>
    exact ⟨[], '\n' :: cs, rfl, endsLine_lineBreak cs,
      (Prod.mk.inj h).1.symm, .inl .nil⟩
  | case3 c cs n ih =>
    obtain ⟨x, r, rfl, hr, rfl, hx⟩ := ih h
    refine ⟨'\\' :: c :: x, r, rfl, hr, by simp; omega, ?_⟩
    refine hx.imp (.escape c) (And.imp_right ?_)
    rintro ⟨items, rfl, hitems⟩
    exact ⟨'\\' :: c :: items, rfl, hitems.escape c⟩
  | case4 cs n _ _ => simp at h
  | case5 c cs n hline hescape hc ih =>
    obtain ⟨x, r, rfl, hr, rfl, hx⟩ := ih h
    refine ⟨c :: x, r, rfl, hr, by simp; omega, ?_⟩
    by_cases hback : c = '\\'
    · obtain ⟨rfl, rfl⟩ : x = [] ∧ r = [] := by
        rw [← List.append_eq_nil_iff]
        cases hcs : x ++ r with
        | nil => rfl
        | cons d cs => exact (hescape d cs hback hcs).elim
      exact .inr ⟨rfl, [], by rw [hback]; rfl, .nil⟩
    · refine hx.imp (.plain hc hback hline) (And.imp_right ?_)
      rintro ⟨items, rfl, hitems⟩
      exact ⟨c :: items, rfl, hitems.plain hc hback hline⟩

/-- **A template**: items and the back quote behind them are found. -/
theorem TemplateItems.templateExtent? (h : TemplateItems x) (r : List Char)
    (n : Nat) :
    templateExtent? (x ++ '\x60' :: r) n = some (n + x.length + 1) := by
  induction h generalizing n with
  | nil => rfl
  | escape c _ ih =>
    rw [List.cons_append, List.cons_append, ScriptTree.templateExtent?, ih]
    simp only [List.length_cons, Option.some.injEq]
    omega
  | plain hquote hback _ ih =>
    rw [List.cons_append, ScriptTree.templateExtent?, ih]
    · simp only [List.length_cons, Option.some.injEq]
      omega
    · exact hquote
    · exact fun _ _ h _ => hback h

/-- **The rule for templates finds** nothing else. -/
theorem exists_of_templateExtent? {m : Nat}
    (h : templateExtent? cs n = some m) :
    ∃ x r, cs = x ++ '\x60' :: r ∧ TemplateItems x
      ∧ m = n + x.length + 1 := by
  fun_induction templateExtent? cs n with
  | case1 n => simp at h
  | case2 cs n => exact ⟨[], cs, rfl, .nil, (Option.some.inj h).symm⟩
  | case3 c cs n ih =>
    obtain ⟨x, r, rfl, hx, rfl⟩ := ih h
    exact ⟨'\\' :: c :: x, r, rfl, hx.escape c, by simp; omega⟩
  | case4 c cs n hquote hescape ih =>
    obtain ⟨x, r, rfl, hx, rfl⟩ := ih h
    refine ⟨c :: x, r, rfl, hx.plain hquote ?_, by simp; omega⟩
    rintro rfl
    cases x with
    | nil => exact hescape _ _ rfl rfl
    | cons d x => exact hescape _ _ rfl rfl

/-- **A regular expression**: a body, the slash behind it and the flags
behind that are found. -/
theorem RegexBody.regexExtent (h : RegexBody inClass x) (r : List Char)
    (n : Nat) : regexExtent inClass (x ++ '/' :: r) n
      = (n + x.length + 1 + (r.takeWhile Char.isLower).length, none) := by
  induction h generalizing n with
  | nil => rfl
  | escape hline _ ih =>
    rw [List.cons_append, List.cons_append, ScriptTree.regexExtent,
      if_neg hline, ih]
    simp only [List.length_cons]
    congr 1
    omega
  | opens _ ih | closes _ ih =>
    rw [List.cons_append, ScriptTree.regexExtent, ih]
    simp only [List.length_cons]
    congr 1
    omega
  | plain hline hback hopen hclose hslash _ ih =>
    rw [List.cons_append, ScriptTree.regexExtent, ih]
    · simp only [List.length_cons]
      congr 1
      omega
    · exact hline
    · exact fun _ _ h _ => hback h
    · exact hopen
    · exact hclose
    · exact fun h hc => absurd (hslash hc) (by simp [h])

/-- **The rule for regular expressions finds** nothing else. -/
theorem exists_of_regexExtent {m : Nat}
    (h : regexExtent inClass cs n = (m, none)) :
    ∃ x r, cs = x ++ '/' :: r ∧ RegexBody inClass x
      ∧ m = n + x.length + 1 + (r.takeWhile Char.isLower).length := by
  fun_induction regexExtent inClass cs n with
  | case1 _ n | case2 _ cs n | case3 _ cs n => simp at h
  | case4 inClass c cs n hc ih =>
    obtain ⟨x, r, rfl, hx, rfl⟩ := ih h
    exact ⟨'\\' :: c :: x, r, rfl, hx.escape hc, by simp; omega⟩
  | case5 inClass cs n ih =>
    obtain ⟨x, r, rfl, hx, rfl⟩ := ih h
    exact ⟨'[' :: x, r, rfl, hx.opens, by simp; omega⟩
  | case6 inClass cs n ih =>
    obtain ⟨x, r, rfl, hx, rfl⟩ := ih h
    exact ⟨']' :: x, r, rfl, hx.closes, by simp; omega⟩
  | case7 cs n => exact ⟨[], cs, rfl, .nil, (Prod.mk.inj h).1.symm⟩
  | case8 inClass c cs n hline hescape hopen hclose hend ih =>
    obtain ⟨x, r, rfl, hx, rfl⟩ := ih h
    refine ⟨c :: x, r, rfl, hx.plain hline ?_ hopen hclose ?_,
      by simp; omega⟩
    · rintro rfl
      cases x with
      | nil => exact hescape _ _ rfl rfl
      | cons d x => exact hescape _ _ rfl rfl
    · rintro rfl
      cases inClass with
      | false => exact (hend rfl rfl).elim
      | true => rfl

/-- The rest of a line ends where the line does. -/
theorem exists_of_lineExtent (cs : List Char) :
    ∃ x r, cs = x ++ r ∧ EndsLine r ∧ lineExtent cs = x.length
      ∧ '\n' ∉ x := by
  refine ⟨cs.takeWhile (· ≠ '\n'), cs.dropWhile (· ≠ '\n'),
    List.takeWhile_append_dropWhile.symm, ?_, rfl, ?_⟩
  · intro c hc
    have := List.head?_dropWhile_not (· ≠ '\n') cs
    simp_all
  · intro h
    simpa using List.all_eq_true.mp List.all_takeWhile _ h

/-- **A regular expression without an end** goes on to the end of its
line. -/
theorem regexExtent_unterminated {m : Nat} {e : LexError}
    (h : regexExtent inClass cs n = (m, some e)) :
    ∃ x r, cs = x ++ r ∧ EndsLine r ∧ m = n + x.length ∧ '\n' ∉ x := by
  fun_induction regexExtent inClass cs n with
  | case1 _ n =>
    exact ⟨[], [], rfl, endsLine_nil, (Prod.mk.inj h).1.symm, by simp⟩
  | case2 _ cs n =>
    exact ⟨[], '\n' :: cs, rfl, endsLine_lineBreak cs,
      (Prod.mk.inj h).1.symm, by simp⟩
  | case3 _ cs n =>
    exact ⟨['\\'], '\n' :: cs, rfl, endsLine_lineBreak cs,
      (Prod.mk.inj h).1.symm, by simp⟩
  | case4 inClass c cs n hc ih =>
    obtain ⟨x, r, rfl, hr, rfl, hx⟩ := ih h
    exact ⟨'\\' :: c :: x, r, rfl, hr, by simp; omega,
      by simp [hx, Ne.symm hc]⟩
  | case5 inClass cs n ih =>
    obtain ⟨x, r, rfl, hr, rfl, hx⟩ := ih h
    exact ⟨'[' :: x, r, rfl, hr, by simp; omega, by simp [hx]⟩
  | case6 inClass cs n ih =>
    obtain ⟨x, r, rfl, hr, rfl, hx⟩ := ih h
    exact ⟨']' :: x, r, rfl, hr, by simp; omega, by simp [hx]⟩
  | case7 cs n => simp at h
  | case8 inClass c cs n hline hescape hopen hclose hend ih =>
    obtain ⟨x, r, rfl, hr, rfl, hx⟩ := ih h
    exact ⟨c :: x, r, rfl, hr, by simp; omega, by simp [hx, Ne.symm hline]⟩

/-- **A comment**: a body without a closing mark and the mark behind it are
found. -/
theorem commentExtent?_append (h : ¬['*', '/'] <:+: x) (r : List Char)
    (n : Nat) :
    commentExtent? (x ++ '*' :: '/' :: r) n = some (n + x.length + 2) := by
  induction x generalizing n with
  | nil => rfl
  | cons c x ih =>
    rw [List.cons_append, commentExtent?, ih]
    · simp only [List.length_cons, Option.some.injEq]
      omega
    · exact fun hx => h (hx.trans (List.suffix_cons c x).isInfix)
    · rintro cs rfl hcs
      cases x with
      | nil => simp at hcs
      | cons d x =>
        obtain ⟨rfl, -⟩ := List.cons.inj hcs
        exact h ⟨[], x, rfl⟩

/-- **The rule for comments finds** nothing else. -/
theorem exists_of_commentExtent? {m : Nat}
    (h : commentExtent? cs n = some m) :
    ∃ x r, cs = x ++ '*' :: '/' :: r ∧ ¬['*', '/'] <:+: x
      ∧ m = n + x.length + 2 := by
  fun_induction commentExtent? cs n with
  | case1 n => simp at h
  | case2 cs n =>
    exact ⟨[], cs, rfl, by simp, (Option.some.inj h).symm⟩
  | case3 c cs n hmark ih =>
    obtain ⟨x, r, rfl, hx, rfl⟩ := ih h
    refine ⟨c :: x, r, rfl, ?_, by simp; omega⟩
    rw [List.infix_cons_iff]
    rintro (hfront | hrest)
    · obtain ⟨rfl, y, rfl⟩ := List.cons_prefix_cons.1 hfront
      exact hmark _ rfl rfl
    · exact hx hrest

end ScriptTree
