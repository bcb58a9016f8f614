import ScriptTree.Proofs.Token.Delimiter
import ScriptTree.Text.Quoted
import ScriptTree.Tree.Sexp

/-!
# Terms that can be read back

What is put into quotes becomes the items of a string: `Quotes` lists the
three forms a character may take. In none of them can the text be confused
with its closing quote, and no character takes a form that another one
takes, even with more text behind it. So a quoted text ends where it ends
(`quote_delimited`), and it tells what was quoted (`quote_injective`).

Any other atom is written as it is, and so a term cannot always be read
back. It can if each atom in it tells where it ends: because a blank or a
parenthesis must follow, of which it has none itself, or because it has
delimiters of its own (`Sexp.IsAtom`). Such a term is **legible**, and from
its front on no other one has the same text (`Sexp.Legible.eq_of_append_eq`).
-/

namespace ScriptTree

/-! ## Hexadecimal numbers -/

theorem digitChar_injective :
    ∀ m < 16, ∀ n < 16, Nat.digitChar m = Nat.digitChar n → m = n := by
  decide

/-- **A number is told by its hexadecimal digits.** -/
theorem toDigits_injective {m n : Nat}
    (h : Nat.toDigits 16 m = Nat.toDigits 16 n) : m = n := by
  induction m using Nat.strongRecOn generalizing n with
  | _ m ih =>
    have hlast := Nat.mod_lt m (by decide : 0 < 16)
    have hlast' := Nat.mod_lt n (by decide : 0 < 16)
    rw [Nat.toDigits_eq_if (by decide), Nat.toDigits_eq_if (n := n)
      (by decide)] at h
    split at h <;> split at h
    · exact digitChar_injective m ‹_› n ‹_› (List.cons.inj h).1
    · have hnil := (List.append_inj' (show [] ++ [_] = _ from h) rfl).1
      exact absurd hnil.symm Nat.toDigits_ne_nil
    · have hnil := (List.append_inj' (show _ = [] ++ [_] from h) rfl).1
      exact absurd hnil Nat.toDigits_ne_nil
    · obtain ⟨hfront, hback⟩ := List.append_inj' h rfl
      have hdiv := ih _ (by omega) hfront
      have hmod := digitChar_injective _ hlast _ hlast' (List.cons.inj hback).1
      omega

/-- A number is made of digits. -/
theorem exists_digit_of_mem_toDigits {c : Char} {n : Nat}
    (h : c ∈ Nat.toDigits 16 n) : ∃ d < 16, c = Nat.digitChar d := by
  induction n using Nat.strongRecOn with
  | _ n ih =>
    rw [Nat.toDigits_eq_if (by decide)] at h
    split at h
    · exact ⟨n, ‹_›, List.mem_singleton.1 h⟩
    · rcases List.mem_append.1 h with h | h
      · exact ih _ (by omega) h
      · exact ⟨_, Nat.mod_lt n (by decide), List.mem_singleton.1 h⟩

/-! ## The forms of a character -/

/-- The characters that have a short escape, each with its letter. -/
def shortEscapes : List (Char × Char) :=
  [('\x00', '0'), ('\t', 't'), ('\r', 'r'), ('\n', 'n'), ('"', '"'),
    ('\\', '\\')]

/-- **The form of a character in a quoted text.** -/
inductive Quotes (c : Char) : List Char → Prop where
  /-- A backslash and a letter. -/
  | short {d : Char} (h : (c, d) ∈ shortEscapes) : Quotes c ['\\', d]
  /-- The number of the character. -/
  | number :
    Quotes c ('\\' :: 'u' :: '{' :: (Nat.toDigits 16 c.toNat ++ ['}']))
  /-- The character itself. -/
  | plain (hquote : c ≠ '"') (hback : c ≠ '\\') (hline : c ≠ '\n') :
    Quotes c [c]

theorem quoteChar_quotes (c : Char) : Quotes c (quoteChar c).toList := by
  unfold quoteChar
  split
  · exact .short (by subst c; decide)
  split
  · exact .short (by subst c; decide)
  split
  · exact .short (by subst c; decide)
  split
  · exact .short (by subst c; decide)
  split
  · exact .short (by subst c; decide)
  split
  · exact .short (by subst c; decide)
  split
  · have h : (escapeNumber c).toList
        = '\\' :: 'u' :: '{' :: (Nat.toDigits 16 c.toNat ++ ['}']) := by
      simp [escapeNumber]
    exact h ▸ .number
  · have h : c.toString.toList = [c] := by simp
    exact h ▸ .plain ‹_› ‹_› ‹_›

/-- What is read of a text goes on with what is read behind it. -/
theorem StringItems.append {quote : Char} {x y : List Char}
    (hx : StringItems quote x) (hy : StringItems quote y) :
    StringItems quote (x ++ y) := by
  induction hx with
  | nil => exact hy
  | escape c _ ih => exact .escape c ih
  | plain hquote hback hline _ ih => exact .plain hquote hback hline ih

/-- A text with nothing in it that has a meaning in a string. -/
theorem StringItems.of_forall {quote : Char} {x : List Char}
    (h : ∀ c ∈ x, c ≠ quote ∧ c ≠ '\\' ∧ c ≠ '\n') :
    StringItems quote x := by
  induction x with
  | nil => exact .nil
  | cons c x ih =>
    obtain ⟨⟨hquote, hback, hline⟩, hx⟩ := List.forall_mem_cons.1 h
    exact .plain hquote hback hline (ih hx)

namespace Quotes

variable {c d : Char} {w v r s : List Char}

/-- **A character becomes items of a string.** -/
theorem items (h : Quotes c w) : StringItems '"' w := by
  cases h with
  | short => exact .escape _ .nil
  | number =>
    refine .escape _ (.of_forall fun d hd => ?_)
    have hdigit : ∀ n < 16, Nat.digitChar n ≠ '"' ∧ Nat.digitChar n ≠ '\\'
        ∧ Nat.digitChar n ≠ '\n' := by decide
    rcases List.mem_cons.1 hd with rfl | hd
    · decide
    rcases List.mem_append.1 hd with hd | hd
    · obtain ⟨n, hn, rfl⟩ := exists_digit_of_mem_toDigits hd
      exact hdigit n hn
    · rw [List.mem_singleton.1 hd]
      decide
  | plain hquote hback hline => exact .plain hquote hback hline .nil

/-- The digits of a number end with the brace. -/
theorem digits_eq {m n : Nat}
    (h : Nat.toDigits 16 m ++ '}' :: r = Nat.toDigits 16 n ++ '}' :: s) :
    Nat.toDigits 16 m = Nat.toDigits 16 n ∧ r = s := by
  have hdigit : ∀ n < 16, Nat.digitChar n ≠ '}' := by decide
  have hbrace (k : Nat) : '}' ∉ Nat.toDigits 16 k := fun hmem => by
    obtain ⟨n, hn, heq⟩ := exists_digit_of_mem_toDigits hmem
    exact hdigit n hn heq.symm
  have hm := hbrace m
  have hn := hbrace n
  rcases List.append_eq_append_iff.1 h with ⟨x, hx, hx'⟩ | ⟨x, hx, hx'⟩
  all_goals
    cases x with
    | nil => simp_all
    | cons b x =>
      obtain ⟨rfl, -⟩ := List.cons.inj hx'
      simp_all

/-- **No character takes the form of another one.** -/
theorem eq_of_append_eq (hw : Quotes c w) (hv : Quotes d v)
    (h : w ++ r = v ++ s) : c = d ∧ r = s := by
  have hshort : ∀ p ∈ shortEscapes, p.2 ≠ 'u' ∧
      ∀ q ∈ shortEscapes, p.2 = q.2 → p.1 = q.1 := by decide
  cases hw with
  | short hc =>
    cases hv with
    | short hd =>
      obtain ⟨heq, hrest⟩ := List.cons.inj (List.cons.inj h).2
      exact ⟨(hshort _ hc).2 _ hd heq, hrest⟩
    | number =>
      obtain ⟨heq, -⟩ := List.cons.inj (List.cons.inj h).2
      exact absurd heq (hshort _ hc).1
    | plain _ hback => exact absurd (List.cons.inj h).1.symm hback
  | number =>
    cases hv with
    | short hd =>
      obtain ⟨heq, -⟩ := List.cons.inj (List.cons.inj h).2
      exact absurd heq.symm (hshort _ hd).1
    | number =>
      simp only [List.cons_append, List.append_assoc, List.nil_append,
        List.cons.injEq, true_and] at h
      obtain ⟨hdigits, hrest⟩ := digits_eq h
      refine ⟨Char.ext (UInt32.toNat_inj.1 ?_), hrest⟩
      exact toDigits_injective hdigits
    | plain _ hback => exact absurd (List.cons.inj h).1.symm hback
  | plain _ hback =>
    cases hv with
    | short | number => exact absurd (List.cons.inj h).1 hback
    | plain => exact List.cons.inj h

end Quotes

/-! ## The whole text -/

/-- What stands between the quotes. -/
theorem quote_toList (text : String) :
    (quote text).toList
      = '"' :: (text.toList.flatMap (fun c => (quoteChar c).toList)
        ++ ['"']) := by
  simp [quote, String.toList_join, List.flatMap_map]

/-- **A quoted text** is a string of the grammar. -/
theorem quote_delimited (text : String) :
    Delimited .string (quote text).toList := by
  rw [quote_toList]
  refine .string (.inl rfl) ?_
  induction text.toList with
  | nil => exact .nil
  | cons c cs ih => exact (quoteChar_quotes c).items.append ih

/-- Characters in quotes tell what they are. -/
theorem flatMap_quoteChar_injective {xs ys r s : List Char}
    (h : xs.flatMap (fun c => (quoteChar c).toList) ++ '"' :: r
      = ys.flatMap (fun c => (quoteChar c).toList) ++ '"' :: s) :
    xs = ys := by
  -- No character is taken for the quote that ends the text.
  have hends {c : Char} {x y : List Char} :
      '"' :: x ≠ (quoteChar c).toList ++ y := by
    have hquotes := quoteChar_quotes c
    generalize (quoteChar c).toList = w at hquotes
    intro heq
    cases hquotes with
    | short | number => exact absurd (List.cons.inj heq).1 (by decide)
    | plain hquote => exact hquote (List.cons.inj heq).1.symm
  induction xs generalizing ys with
  | nil =>
    cases ys with
    | nil => rfl
    | cons y ys =>
      rw [List.flatMap_cons, List.append_assoc] at h
      exact absurd h hends
  | cons x xs ih =>
    cases ys with
    | nil =>
      rw [List.flatMap_cons, List.append_assoc] at h
      exact absurd h.symm hends
    | cons y ys =>
      simp only [List.flatMap_cons, List.append_assoc] at h
      obtain ⟨hc, h⟩ :=
        (quoteChar_quotes x).eq_of_append_eq (quoteChar_quotes y) h
      rw [hc, ih h]

/-- **A quoted text tells what was quoted.** -/
theorem quote_injective {text text' : String}
    (h : quote text = quote text') : text = text' := by
  have h := congrArg String.toList h
  rw [quote_toList, quote_toList] at h
  exact String.toList_injective
    (flatMap_quoteChar_injective (List.cons.inj h).2)

/-! ## Bare texts -/

/-- The characters with a meaning of their own in a term. -/
def termMarks : List Char := [' ', '(', ')', '"', '\x27', '\x60']

/-- Whether the character has no meaning of its own in a term. -/
def isBare (c : Char) : Bool := !termMarks.contains c

/-- A property that no such mark has makes a character bare. -/
theorem isBare_of_all {p : Char → Bool}
    (hp : termMarks.all (fun c => !p c) = true) {c : Char}
    (h : p c = true) : isBare c = true := by
  unfold isBare
  rw [Bool.not_eq_true', Bool.eq_false_iff]
  intro hmark
  have hnot := List.all_eq_true.1 hp c (List.contains_iff_mem.1 hmark)
  exact absurd hnot (by simp [h])

/-- **The text behind a term**: if there is any it goes on with a blank or
closes a list. -/
def EndsTerm (behind : List Char) : Prop :=
  ∀ c ∈ behind.head?, c = ' ' ∨ c = ')'

theorem endsTerm_nil : EndsTerm [] := fun _ h => nomatch h

theorem endsTerm_close (behind : List Char) : EndsTerm (')' :: behind) :=
  fun _ h => .inr (Option.some.inj h).symm

variable {w v r s : List Char} {c : Char}

/-! ## Atoms -/

/-- **Two bare texts** that end at once. -/
theorem eq_of_isBare (hw : ∀ c ∈ w, isBare c = true)
    (hv : ∀ c ∈ v, isBare c = true) (hr : EndsTerm r) (hs : EndsTerm s)
    (h : w ++ r = v ++ s) : w = v ∧ r = s := by
  -- The longer text would go on with what ends the shorter one.
  have hends {x y : List Char} (hx : ∀ c ∈ x, isBare c = true)
      (hy : EndsTerm (x ++ y)) : x = [] := by
    cases x with
    | nil => rfl
    | cons c x =>
      have hbare := hx c List.mem_cons_self
      rcases hy c rfl with rfl | rfl <;> exact absurd hbare (by decide)
  rcases List.append_eq_append_iff.1 h with ⟨x, rfl, rfl⟩ | ⟨x, rfl, rfl⟩
  · have hx := hends (fun c hc => hv c (List.mem_append_right _ hc)) hr
    simp [hx]
  · have hx := hends (fun c hc => hw c (List.mem_append_right _ hc)) hs
    simp [hx]

/-- A bare text is not opened by a mark. -/
theorem ne_of_isBare (hc : isBare c = false) (hends : ¬EndsTerm (c :: r))
    (hv : ∀ c ∈ v, isBare c = true) (hs : EndsTerm s) :
    c :: r ≠ v ++ s := by
  intro h
  cases v with
  | nil => exact hends (h ▸ hs)
  | cons d v =>
    obtain ⟨rfl, -⟩ := List.cons.inj h
    exact absurd (hv c List.mem_cons_self) (by simp [hc])

namespace Sexp

/-- **An atom that tells where it ends.** -/
inductive IsAtom (w : List Char) : Prop where
  /-- It is bare. -/
  | bare (h : ∀ c ∈ w, isBare c = true)
  /-- It is a string. -/
  | string (h : Delimited .string w)
  /-- It is a template. -/
  | template (h : Delimited .template w)

/-- A text with delimiters is opened by one of the quotes. -/
theorem exists_quote {kind : TokenKind}
    (hkind : kind = .string ∨ kind = .template) (h : Delimited kind w) :
    ∃ c cs, w = c :: cs
      ∧ if kind = .string then c = '"' ∨ c = '\x27' else c = '\x60' := by
  cases h with
  | string hquote => exact ⟨_, _, rfl, hquote⟩
  | template => exact ⟨_, _, rfl, rfl⟩
  | regex | comment => simp at hkind

/-- A quote opens neither a bare text nor what is behind one. -/
theorem Delimited.ne_bare {kind : TokenKind}
    (hkind : kind = .string ∨ kind = .template) (h : Delimited kind w)
    (hv : ∀ c ∈ v, isBare c = true) (hs : EndsTerm s) :
    w ++ r ≠ v ++ s := by
  obtain ⟨c, cs, rfl, hc⟩ := exists_quote hkind h
  have hquote : c = '"' ∨ c = '\x27' ∨ c = '\x60' := by
    split at hc
    · exact hc.imp_right .inl
    · exact .inr (.inr hc)
  refine ne_of_isBare ?_ (fun hends => ?_) hv hs
  · rcases hquote with rfl | rfl | rfl <;> rfl
  · rcases hquote with rfl | rfl | rfl <;>
      exact absurd (hends _ rfl) (by decide)

/-- **Two atoms that end at once.** -/
theorem IsAtom.eq_of_append_eq (hw : IsAtom w) (hv : IsAtom v)
    (hr : EndsTerm r) (hs : EndsTerm s) (h : w ++ r = v ++ s) :
    w = v ∧ r = s := by
  have hsame {kind : TokenKind} (hw : Delimited kind w)
      (hv : Delimited kind v) : w = v ∧ r = s := by
    obtain rfl := hw.eq_of_append_eq hv h
    exact ⟨rfl, List.append_cancel_left h⟩
  have hother {x y r s : List Char} (hx : Delimited .string x)
      (hy : Delimited .template y) : x ++ r ≠ y ++ s := by
    obtain ⟨c, cs, rfl, hc⟩ := exists_quote (.inl rfl) hx
    obtain ⟨d, ds, rfl, rfl⟩ := exists_quote (.inr rfl) hy
    intro heq
    obtain ⟨rfl, -⟩ := List.cons.inj heq
    exact absurd hc (by decide)
  cases hw with
  | bare hw =>
    cases hv with
    | bare hv => exact eq_of_isBare hw hv hr hs h
    | string hv => exact absurd h.symm (Delimited.ne_bare (.inl rfl) hv hw hr)
    | template hv =>
      exact absurd h.symm (Delimited.ne_bare (.inr rfl) hv hw hr)
  | string hw =>
    cases hv with
    | bare hv => exact absurd h (Delimited.ne_bare (.inl rfl) hw hv hs)
    | string hv => exact hsame hw hv
    | template hv => exact absurd h (hother hw hv)
  | template hw =>
    cases hv with
    | bare hv => exact absurd h (Delimited.ne_bare (.inr rfl) hw hv hs)
    | string hv => exact absurd h.symm (hother hv hw)
    | template hv => exact hsame hw hv

/-- A parenthesis opens no atom. -/
theorem IsAtom.ne_open (hw : IsAtom w) (hr : EndsTerm r) :
    '(' :: s ≠ w ++ r := by
  have hopen {kind : TokenKind} (hkind : kind = .string ∨ kind = .template)
      (hw : Delimited kind w) : '(' :: s ≠ w ++ r := by
    obtain ⟨c, cs, rfl, hc⟩ := exists_quote hkind hw
    intro heq
    obtain ⟨rfl, -⟩ := List.cons.inj heq
    split at hc <;> exact absurd hc (by decide)
  cases hw with
  | bare hw =>
    exact ne_of_isBare rfl (fun h => absurd (h _ rfl) (by decide)) hw hr
  | string hw => exact hopen (.inl rfl) hw
  | template hw => exact hopen (.inr rfl) hw

/-! ## The characters of a term -/

mutual

/-- **The characters of a term.** -/
def letters : Sexp → List Char
  | atom text => text.toList
  | node name parts => '(' :: (name.toList ++ (partLetters parts ++ [')']))

/-- The characters of the parts of a term, each behind a blank. -/
def partLetters : List Sexp → List Char
  | [] => []
  | part :: parts => ' ' :: (letters part ++ partLetters parts)

end

mutual

theorem writeOnto_toList (out : String) (t : Sexp) :
    (t.writeOnto out).toList = out.toList ++ t.letters := by
  cases t with
  | atom text => simp [writeOnto, letters]
  | node name parts =>
    simp [writeOnto, letters, writeParts_toList, List.append_assoc]

theorem writeParts_toList (out : String) (ts : List Sexp) :
    (writeParts out ts).toList = out.toList ++ partLetters ts := by
  cases ts with
  | nil => simp [writeParts, partLetters]
  | cons t ts =>
    simp [writeParts, partLetters, writeParts_toList, writeOnto_toList]

end

/-- **A term as text** is made of its characters. -/
theorem render_toList (t : Sexp) : t.render.toList = t.letters :=
  writeOnto_toList "" t

/-! ## Legible terms -/

/-- **A term that can be read back**: its names are bare, and each of its
atoms tells where it ends. -/
inductive Legible : Sexp → Prop where
  | atom {text : String} (h : IsAtom text.toList) : Legible (.atom text)
  | node {name : String} {parts : List Sexp}
      (hname : name.toList.all isBare = true)
      (hparts : ∀ t ∈ parts, t.Legible) : Legible (.node name parts)

theorem endsTerm_partLetters (ts : List Sexp) (r : List Char) :
    EndsTerm (partLetters ts ++ ')' :: r) := by
  cases ts with
  | nil => exact endsTerm_close r
  | cons t ts => exact fun _ h => .inl (Option.some.inj h).symm

/-- Parts side by side, up to the end of the list. -/
theorem parts_eq_of_append_eq {ts us : List Sexp}
    (hts : ∀ t ∈ ts, ∀ u r s, u.Legible → EndsTerm r → EndsTerm s →
      t.letters ++ r = u.letters ++ s → t = u ∧ r = s)
    (hus : ∀ u ∈ us, u.Legible)
    (h : partLetters ts ++ ')' :: r = partLetters us ++ ')' :: s) :
    ts = us ∧ r = s := by
  induction ts generalizing us with
  | nil =>
    cases us with
    | nil => exact ⟨rfl, (List.cons.inj h).2⟩
    | cons => exact absurd (List.cons.inj h).1 (by decide)
  | cons t ts ih =>
    cases us with
    | nil => exact absurd (List.cons.inj h).1 (by decide)
    | cons u us =>
      simp only [partLetters, List.cons_append, List.append_assoc,
        List.cons.injEq, true_and] at h
      obtain ⟨hu, hus⟩ := List.forall_mem_cons.1 hus
      obtain ⟨ht, hts⟩ := List.forall_mem_cons.1 hts
      obtain ⟨hhead, htail⟩ := ht u _ _ hu (endsTerm_partLetters ts r)
        (endsTerm_partLetters us s) h
      obtain ⟨hparts, hrest⟩ := ih hts hus htail
      exact ⟨by rw [hhead, hparts], hrest⟩

/-- **No two legible terms have the same text** from the front on. -/
theorem Legible.eq_of_append_eq {t u : Sexp} (ht : t.Legible)
    (hu : u.Legible) (hr : EndsTerm r) (hs : EndsTerm s)
    (h : t.letters ++ r = u.letters ++ s) : t = u ∧ r = s := by
  induction ht generalizing u r s with
  | atom ht =>
    cases hu with
    | atom hu =>
      obtain ⟨htext, hrest⟩ := ht.eq_of_append_eq hu hr hs h
      exact ⟨congrArg Sexp.atom (String.toList_injective htext), hrest⟩
    | node => exact absurd h.symm (ht.ne_open hr)
  | node hname _ ih =>
    cases hu with
    | atom hu => exact absurd h (hu.ne_open hs)
    | node hname' hparts' =>
      simp only [letters, List.cons_append, List.append_assoc,
        List.nil_append, List.cons.injEq, true_and] at h
      obtain ⟨htext, htail⟩ := eq_of_isBare (List.all_eq_true.1 hname)
        (List.all_eq_true.1 hname') (endsTerm_partLetters _ _)
        (endsTerm_partLetters _ _) h
      obtain ⟨rfl, hrest⟩ := parts_eq_of_append_eq
        (fun t ht u r s hu hr hs h => ih t ht hu hr hs h) hparts' htail
      rw [String.toList_injective htext]
      exact ⟨rfl, hrest⟩

/-- **A legible term is told by its text.** -/
theorem Legible.eq_of_render_eq {t u : Sexp} (ht : t.Legible)
    (hu : u.Legible) (h : t.render = u.render) : t = u := by
  have h := congrArg String.toList h
  rw [render_toList, render_toList] at h
  refine (ht.eq_of_append_eq hu endsTerm_nil endsTerm_nil ?_).1
  rw [h]

end Sexp

end ScriptTree
