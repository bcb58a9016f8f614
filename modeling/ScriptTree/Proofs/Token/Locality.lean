import ScriptTree.Proofs.Token.Front

/-!
# A token is known by its own text

Where a token ends is decided by what stands behind it: a name goes on
for as long as there are characters of names. But not all of what stands
behind it matters. A token that has nothing wrong with it is found again
if the text is cut off behind it, at once or later, and, unless it is a
comment, also if a space or a comment is put there, though no comment may
be put behind a lone slash (`Lexeme.atFront_follow`).

One lemma for each rule says so. Delimited texts need nothing behind
their closing mark; runs of characters of one class need something of
another class, or nothing at all.
-/

namespace ScriptTree

variable {w y z cs : List Char} {c : Char} {m n : Nat}

/-! ## What stands behind a token -/

/-- **What keeps a token from going on**: a space, or the slash that begins
a comment. -/
def isFence (c : Char) : Bool := c = ' ' || c = '/'

theorem isFence_iff : isFence c = true ↔ c = ' ' ∨ c = '/' := by
  simp [isFence]

/-- **What may follow a token** that was followed by `y`: a front of `y`,
at the end of which the text ends or goes on with a space or a comment. -/
def MayFollow (y z : List Char) : Prop :=
  ∃ front, front <+: y
    ∧ (z = front ∨ ∃ c z', isFence c = true ∧ z = front ++ c :: z')

/-- What may follow is empty, or begins with a fence, or as before. -/
theorem MayFollow.cons (h : MayFollow y (c :: z)) :
    isFence c = true ∨ ∃ y', y = c :: y' ∧ MayFollow y' z := by
  obtain ⟨front, ⟨y', rfl⟩, hz⟩ := h
  cases front with
  | nil =>
    rcases hz with hz | ⟨d, z', hd, hz⟩
    · exact absurd hz (List.cons_ne_nil c z)
    · exact .inl ((List.cons.inj hz).1 ▸ hd)
  | cons d front =>
    refine .inr ⟨front ++ y', ?_, front, List.prefix_append _ _, ?_⟩
    · rcases hz with hz | ⟨_, z', _, hz⟩ <;> rw [(List.cons.inj hz).1]
      all_goals rfl
    · exact hz.imp (fun h => (List.cons.inj h).2)
        (fun ⟨d, z', hd, h⟩ => ⟨d, z', hd, (List.cons.inj h).2⟩)

theorem MayFollow.head (h : MayFollow y (c :: z)) :
    isFence c = true ∨ ∃ y', y = c :: y' :=
  h.cons.imp_right (fun ⟨y', hy, _⟩ => ⟨y', hy⟩)

/-- What followed may follow, and something in front of both changes
nothing. -/
theorem MayFollow.refl (y : List Char) : MayFollow y y :=
  ⟨y, List.prefix_rfl, .inl rfl⟩

theorem MayFollow.append_left (h : MayFollow y z) (w : List Char) :
    MayFollow (w ++ y) (w ++ z) := by
  obtain ⟨front, hfront, hz⟩ := h
  refine ⟨w ++ front, (List.prefix_append_right_inj w).2 hfront,
    hz.imp (fun h => by rw [h]) (fun ⟨c, z', hc, h⟩ => ⟨c, z', hc, ?_⟩)⟩
  rw [h, List.append_assoc]

section Runs

variable {p : Char → Bool}

/-- As many characters as there are in front are those in front. -/
theorem takeWhile_eq_of_length
    (h : ((w ++ y).takeWhile p).length = w.length) :
    (w ++ y).takeWhile p = w :=
  (List.prefix_of_prefix_length_le (List.takeWhile_prefix p)
    (List.prefix_append w y) (Nat.le_of_eq h)).eq_of_length h

/-- **A run of characters of one class** ends where it ended, if a
character of another class comes behind it, or the same as before. -/
theorem takeWhile_eq_follow (h : (w ++ y).takeWhile p = w)
    (hz : ∀ c z', z = c :: z' → p c = false ∨ ∃ y', y = c :: y') :
    (w ++ z).takeWhile p = w := by
  induction w with
  | nil =>
    cases z with
    | nil => rfl
    | cons c z =>
      have hc : p c = false := by
        rcases hz c z rfl with hc | ⟨y', rfl⟩
        · exact hc
        · refine Bool.eq_false_iff.2 (fun hc => ?_)
          rw [List.nil_append, List.takeWhile_cons_of_pos hc] at h
          exact List.cons_ne_nil _ _ h
      exact List.takeWhile_cons_of_neg (Bool.eq_false_iff.1 hc)
  | cons c w ih =>
    by_cases hc : p c = true
    · rw [List.cons_append, List.takeWhile_cons_of_pos hc] at h ⊢
      rw [ih (List.cons.inj h).2]
    · rw [List.cons_append, List.takeWhile_cons_of_neg hc] at h
      exact absurd h (List.cons_ne_nil _ _).symm

/-- The same of the number of its characters. -/
theorem takeWhile_follow (hspace : p ' ' = false) (hslash : p '/' = false)
    (h : ((w ++ y).takeWhile p).length = w.length) (hz : MayFollow y z) :
    ((w ++ z).takeWhile p).length = w.length := by
  refine congrArg List.length
    (takeWhile_eq_follow (takeWhile_eq_of_length h) ?_)
  rintro c z' rfl
  refine hz.head.imp_left (fun hc => ?_)
  rcases isFence_iff.1 hc with rfl | rfl
  · exact hspace
  · exact hslash

end Runs

/-! ## Delimited texts -/

theorem lt_of_stringExtent {quote : Char}
    (h : stringExtent quote cs n = (m, none)) : n < m := by
  fun_induction stringExtent quote cs n <;> grind

/-- **A string** needs nothing behind its closing quote. -/
theorem stringExtent_follow {quote : Char} (hquote : quote ≠ '\\')
    (h : stringExtent quote (w ++ y) n = (n + w.length, none))
    (z : List Char) :
    stringExtent quote (w ++ z) n = (n + w.length, none) := by
  generalize hcs : w ++ y = cs at h
  generalize hm : n + w.length = m at h
  fun_induction stringExtent quote cs n generalizing w with
  | case1 | case2 => simp at h
  | case3 c cs n ih =>
    have hlt := lt_of_stringExtent h
    obtain _ | ⟨a, _ | ⟨b, w⟩⟩ := w
    · simp at hm; omega
    · simp at hm; omega
    · simp only [List.cons_append, List.cons.injEq] at hcs
      obtain ⟨rfl, rfl, hcs⟩ := hcs
      exact ih hcs (by simp at hm; omega) h
  | case4 cs n hline hescape =>
    obtain _ | ⟨a, w⟩ := w
    · simp at hm h; omega
    · obtain rfl : w = [] := by
        rw [← List.length_eq_zero_iff]
        simp at hm h
        omega
      obtain ⟨rfl, -⟩ := List.cons.inj hcs
      rw [List.singleton_append, stringExtent]
      · exact (if_pos rfl).trans h
      · exact hline
      · exact fun _ _ h _ => hquote h
  | case5 c cs n hline hescape hc ih =>
    have hlt := lt_of_stringExtent h
    obtain _ | ⟨a, w⟩ := w
    · simp at hm; omega
    · obtain ⟨rfl, hrest⟩ := List.cons.inj hcs
      have hback : a ≠ '\\' := by
        rintro rfl
        cases cs with
        | nil => simp [stringExtent] at h
        | cons d cs => exact hescape d cs rfl rfl
      rw [List.cons_append, stringExtent]
      · rw [if_neg hc]
        exact ih hrest (by simp at hm; omega) h
      · exact hline
      · exact fun _ _ h _ => hback h

theorem lt_of_templateExtent? (h : templateExtent? cs n = some m) :
    n < m := by
  fun_induction templateExtent? cs n <;> grind

/-- **A template** needs nothing behind its closing quote. -/
theorem templateExtent?_follow
    (h : templateExtent? (w ++ y) n = some (n + w.length))
    (z : List Char) : templateExtent? (w ++ z) n = some (n + w.length) := by
  generalize hcs : w ++ y = cs at h
  generalize hm : n + w.length = m at h
  fun_induction templateExtent? cs n generalizing w with
  | case1 => simp at h
  | case2 cs n =>
    obtain _ | ⟨a, w⟩ := w
    · simp at hm h; omega
    · obtain ⟨rfl, -⟩ := List.cons.inj hcs
      rw [List.cons_append, templateExtent?]
      exact h
  | case3 c cs n ih =>
    have hlt := lt_of_templateExtent? h
    obtain _ | ⟨a, _ | ⟨b, w⟩⟩ := w
    · simp at hm; omega
    · simp at hm; omega
    · simp only [List.cons_append, List.cons.injEq] at hcs
      obtain ⟨rfl, rfl, hcs⟩ := hcs
      exact ih hcs (by simp at hm; omega) h
  | case4 c cs n hquote hescape ih =>
    have hlt := lt_of_templateExtent? h
    obtain _ | ⟨a, w⟩ := w
    · simp at hm; omega
    · obtain ⟨rfl, hrest⟩ := List.cons.inj hcs
      have hback : a ≠ '\\' := by
        rintro rfl
        cases cs with
        | nil => simp [templateExtent?] at h
        | cons d cs => exact hescape d cs rfl rfl
      rw [List.cons_append, templateExtent?]
      · exact ih hrest (by simp at hm; omega) h
      · exact hquote
      · exact fun _ _ h _ => hback h

theorem lt_of_regexExtent {inClass : Bool}
    (h : regexExtent inClass cs n = (m, none)) : n < m := by
  fun_induction regexExtent inClass cs n <;> grind

/-- **A regular expression** needs nothing behind its flags but what is
none. -/
theorem regexExtent_follow {inClass : Bool}
    (h : regexExtent inClass (w ++ y) n = (n + w.length, none))
    (hz : MayFollow y z) :
    regexExtent inClass (w ++ z) n = (n + w.length, none) := by
  generalize hcs : w ++ y = cs at h
  generalize hm : n + w.length = m at h
  fun_induction regexExtent inClass cs n generalizing w with
  | case1 | case2 | case3 => simp at h
  | case4 inClass c cs n hc ih =>
    have hlt := lt_of_regexExtent h
    obtain _ | ⟨a, _ | ⟨b, w⟩⟩ := w
    · simp at hm; omega
    · simp at hm; omega
    · simp only [List.cons_append, List.cons.injEq] at hcs
      obtain ⟨rfl, rfl, hrest⟩ := hcs
      rw [List.cons_append, List.cons_append, regexExtent, if_neg hc]
      exact ih hrest (by simp at hm; omega) h
  | case5 inClass cs n ih | case6 inClass cs n ih =>
    have hlt := lt_of_regexExtent h
    obtain _ | ⟨a, w⟩ := w
    · simp at hm; omega
    · obtain ⟨rfl, hrest⟩ := List.cons.inj hcs
      rw [List.cons_append, regexExtent]
      exact ih hrest (by simp at hm; omega) h
  | case7 cs n =>
    obtain _ | ⟨a, w⟩ := w
    · simp at hm h; omega
    · obtain ⟨rfl, rfl⟩ := List.cons.inj hcs
      have hlength : ((w ++ y).takeWhile Char.isLower).length
          = w.length := by
        simp at hm h
        have hflags : n + 1 + ((w ++ y).takeWhile Char.isLower).length = m :=
          h
        omega
      rw [List.cons_append, regexExtent,
        takeWhile_follow (by decide) (by decide) hlength hz, ← hlength]
      exact h
  | case8 inClass c cs n hline hescape hopen hclose hend ih =>
    have hlt := lt_of_regexExtent h
    obtain _ | ⟨a, w⟩ := w
    · simp at hm; omega
    · obtain ⟨rfl, hrest⟩ := List.cons.inj hcs
      have hback : a ≠ '\\' := by
        rintro rfl
        cases cs with
        | nil => simp [regexExtent] at h
        | cons d cs => exact hescape d cs rfl rfl
      rw [List.cons_append, regexExtent]
      · exact ih hrest (by simp at hm; omega) h
      · exact hline
      · exact fun _ _ h _ => hback h
      · exact hopen
      · exact hclose
      · exact hend

theorem lt_of_commentExtent? (h : commentExtent? cs n = some m) :
    n < m := by
  fun_induction commentExtent? cs n <;> grind

/-- **A comment with a closing mark** needs nothing behind it. -/
theorem commentExtent?_follow
    (h : commentExtent? (w ++ y) n = some (n + w.length))
    (z : List Char) : commentExtent? (w ++ z) n = some (n + w.length) := by
  generalize hcs : w ++ y = cs at h
  generalize hm : n + w.length = m at h
  fun_induction commentExtent? cs n generalizing w with
  | case1 => simp at h
  | case2 cs n =>
    obtain _ | ⟨a, _ | ⟨b, w⟩⟩ := w
    · simp at hm h; omega
    · simp at hm h; omega
    · simp only [List.cons_append, List.cons.injEq] at hcs
      obtain ⟨rfl, rfl, -⟩ := hcs
      rw [List.cons_append, List.cons_append, commentExtent?]
      exact h
  | case3 c cs n hclose ih =>
    have hlt := lt_of_commentExtent? h
    obtain _ | ⟨a, _ | ⟨b, w⟩⟩ := w
    · simp at hm; omega
    · simp at hm; omega
    · obtain ⟨rfl, hrest⟩ := List.cons.inj hcs
      rw [List.cons_append, commentExtent?]
      · exact ih hrest (by simp at hm ⊢; omega) h
      · intro cs' ha hb
        obtain ⟨rfl, -⟩ := List.cons.inj hb
        exact hclose _ ha hrest.symm

/-! ## Marks -/

/-- A text without a fence behind its first character ends before a fence
does that is not its first. -/
theorem length_le_of_isFront {mark : List Char} {d : Char}
    (hmark : ∀ c ∈ mark.tail, isFence c = false) (hd : isFence d = true)
    (hw : w ≠ []) (h : mark <+: w ++ d :: z) : mark.length ≤ w.length := by
  refine Nat.le_of_not_lt (fun hlt => ?_)
  have hfence := h.getElem hlt
  rw [List.getElem_append_right (Nat.le_refl _)] at hfence
  simp only [Nat.sub_self, List.getElem_cons_zero] at hfence
  have hpos := List.length_pos_iff.2 hw
  have hmem : mark[w.length] ∈ mark.tail := by
    rw [List.mem_iff_getElem]
    refine ⟨w.length - 1, by rw [List.length_tail]; omega, ?_⟩
    rw [List.getElem_tail]
    congr 1
    omega
  exact Bool.false_ne_true ((hmark _ hmem).symm.trans (hfence ▸ hd))

/-- A mark in front of what follows now was in front of what followed
before, since no mark has a fence behind its first character. -/
theorem isPrefixOf_follow {mark : List Char} (hz : MayFollow y z)
    (hmark : ∀ c ∈ mark.tail, isFence c = false) (hw : w ≠ [])
    (h : mark.isPrefixOf (w ++ z) = true) :
    mark.isPrefixOf (w ++ y) = true := by
  rw [List.isPrefixOf_iff_prefix] at h ⊢
  obtain ⟨front, hfront, rfl | ⟨d, z', hd, rfl⟩⟩ := hz
  · exact h.trans ((List.prefix_append_right_inj w).2 hfront)
  · rw [← List.append_assoc] at h
    exact (List.prefix_of_prefix_length_le h (List.prefix_append _ _)
      (length_le_of_isFront hmark hd (List.append_ne_nil_of_left_ne_nil hw _)
        h)).trans ((List.prefix_append_right_inj w).2 hfront)

namespace Punctuator

theorem isFence_of_spelled {s : List Char × Punctuator}
    (hs : s ∈ spelled) : ∀ c ∈ s.1.tail, isFence c = false := by
  have hall : (spelled.all fun s => s.1.tail.all (!isFence ·)) = true := by
    decide
  simpa using List.all_eq_true.mp hall s hs

/-- **The longest mark** is the same mark with something else behind
it. -/
theorem longest?_follow {p : Punctuator} (hz : MayFollow y z)
    (hw : w ≠ []) (h : longest? (w ++ y) = some (p, w.length)) :
    longest? (w ++ z) = some (p, w.length) := by
  obtain ⟨s, hs, hp⟩ := Option.map_eq_some_iff.1 h
  obtain ⟨hfirst, before, behind, hspelled, hbefore⟩ :=
    List.find?_eq_some_iff_append.1 hs
  obtain ⟨rfl, hlength⟩ := Prod.mk.inj hp
  -- The mark is all of `w`.
  have hmark : s.1 = w :=
    (List.prefix_of_prefix_length_le (List.isPrefixOf_iff_prefix.1 hfirst)
      (List.prefix_append w y) (Nat.le_of_eq hlength)).eq_of_length hlength
  refine Option.map_eq_some_iff.2 ⟨s, List.find?_eq_some_iff_append.2
    ⟨?_, before, behind, hspelled, fun t ht => ?_⟩, hp⟩
  · rw [hmark]
    exact List.isPrefixOf_iff_prefix.2 (List.prefix_append w z)
  · have hnot := hbefore t ht
    rw [Bool.not_eq_true', Bool.eq_false_iff] at hnot ⊢
    have hmem : t ∈ spelled := by
      rw [hspelled]
      exact List.mem_append_left _ ht
    exact fun h => hnot (isPrefixOf_follow hz (isFence_of_spelled hmem) hw h)

/-- Where there is no mark there is none with something else behind
it. -/
theorem longest?_follow_none (hz : MayFollow y z) (hw : w ≠ [])
    (h : longest? (w ++ y) = none) : longest? (w ++ z) = none := by
  have h := List.find?_eq_none.1 (Option.map_eq_none_iff.1 h)
  refine Option.map_eq_none_iff.2 (List.find?_eq_none.2 (fun s hs hmark => ?_))
  exact h s hs (isPrefixOf_follow hz (isFence_of_spelled hs) hw hmark)

end Punctuator

/-! ## Numbers -/

/-- **A hexadecimal number** ends where it ended. -/
theorem hexExtent?_follow (hz : MayFollow y z)
    (h : hexExtent? (w ++ y) = some w.length) :
    hexExtent? (w ++ z) = some w.length := by
  match w with
  | [] =>
    unfold hexExtent? at h
    split at h <;> simp at h
  | [x] =>
    unfold hexExtent? at h
    split at h
    · rename_i heq
      obtain ⟨rfl, rfl⟩ := List.cons.inj heq
      split at h
      · rename_i hhex
        rw [List.takeWhile_cons_of_pos
          (Bool.and_eq_true_iff.1 hhex).2] at h
        simp at h
      · simp at h
    · simp at h
  | x :: d :: w =>
    simp only [List.cons_append, hexExtent?] at h ⊢
    split at h
    · rename_i hhex
      rw [if_pos hhex]
      have hlength : ((d :: w ++ y).takeWhile isHexDigit).length
          = (d :: w).length := by
        have := Option.some.inj h
        simp only [List.length_cons, List.cons_append] at this ⊢
        omega
      have hsame := takeWhile_follow (by decide) (by decide) hlength hz
      rw [List.cons_append] at hsame
      rw [hsame]
      simp [Nat.add_comm]
    · simp at h

/-- What is no hexadecimal number is none with something else behind
it. -/
theorem hexExtent?_follow_none (hz : MayFollow y z)
    (h : hexExtent? (w ++ y) = none)
    (hw : w.length = 1 → w ≠ ['x'] ∧ w ≠ ['X']) :
    hexExtent? (w ++ z) = none := by
  have hnot {x d : Char} {cs : List Char}
      (h : hexExtent? (x :: d :: cs) = none) :
      ¬((x = 'x' || x = 'X') && isHexDigit d) = true := by
    intro hhex
    simp only [hexExtent?] at h
    rw [if_pos hhex] at h
    exact nomatch h
  unfold hexExtent?
  split
  · rename_i x d cs heq
    refine if_neg (fun hhex => ?_)
    have hfence {c : Char} (hc : c = x ∨ c = d) : isFence c ≠ true := by
      intro h
      simp only [Bool.and_eq_true, Bool.or_eq_true,
        decide_eq_true_eq] at hhex
      rcases isFence_iff.1 h with rfl | rfl <;> rcases hc with rfl | rfl
      · exact absurd hhex.1 (by decide)
      · exact absurd hhex.2 (by decide)
      · exact absurd hhex.1 (by decide)
      · exact absurd hhex.2 (by decide)
    match w with
    | [] =>
      rw [List.nil_append] at heq
      subst heq
      rcases hz.cons with hx | ⟨y', rfl, hz'⟩
      · exact hfence (.inl rfl) hx
      rcases hz'.cons with hd | ⟨y'', rfl, _⟩
      · exact hfence (.inr rfl) hd
      exact hnot h hhex
    | [a] =>
      obtain ⟨rfl, rfl⟩ := List.cons.inj heq
      simp only [Bool.and_eq_true, Bool.or_eq_true,
        decide_eq_true_eq] at hhex
      rcases hhex.1 with rfl | rfl
      · exact (hw rfl).1 rfl
      · exact (hw rfl).2 rfl
    | a :: b :: w =>
      obtain ⟨rfl, heq'⟩ := List.cons.inj heq
      obtain ⟨rfl, _⟩ := List.cons.inj heq'
      exact hnot h hhex
  · rfl

/-- **A number with a point or without one** ends where it ended. -/
theorem decimalExtent_follow (hz : MayFollow y z)
    (h : decimalExtent (w ++ y) = w.length) :
    decimalExtent (w ++ z) = w.length := by
  unfold decimalExtent at h ⊢
  dsimp only at h ⊢
  split at h
  · -- A point, and digits behind it.
    rename_i fraction hpoint
    have hdigits := List.takeWhile_prefix Char.isDigit (l := w ++ y)
    obtain ⟨w', hw⟩ := List.prefix_of_prefix_length_le hdigits
      (List.prefix_append w y) (by omega)
    generalize hv : (w ++ y).takeWhile Char.isDigit = v at *
    subst hw
    rw [List.append_assoc, List.drop_left] at hpoint
    have hlength : (fraction.takeWhile Char.isDigit).length + 1
        = w'.length := by
      rw [List.length_append] at h
      omega
    cases w' with
    | nil => simp at hlength
    | cons c w' =>
      obtain ⟨rfl, rfl⟩ := List.cons.inj hpoint
      have hall : ∀ d ∈ v, d.isDigit = true := by
        rw [← hv]
        exact fun d hd => List.all_eq_true.mp List.all_takeWhile d hd
      have hfraction := takeWhile_follow (by decide) (by decide)
        (Nat.succ.inj hlength) hz
      rw [List.append_assoc, List.takeWhile_append_of_pos hall,
        List.cons_append, List.takeWhile_cons_of_neg (by decide),
        List.append_nil, List.drop_left]
      simp only [hfraction, List.length_append, List.length_cons]
      omega
  · rename_i hpoint
    rw [h, List.drop_left] at hpoint
    rw [takeWhile_follow (by decide) (by decide) h hz, List.drop_left]
    split
    · rcases hz.head with hspace | ⟨y', rfl⟩
      · exact absurd hspace (by decide)
      · exact absurd rfl (hpoint y')
    · rfl

theorem numberExtent_follow (hz : MayFollow y z)
    (h : numberExtent c (w ++ y) = w.length) :
    numberExtent c (w ++ z) = w.length := by
  unfold numberExtent at h ⊢
  by_cases hc : c = '0'
  · rw [if_pos hc] at h ⊢
    cases hhex : hexExtent? (w ++ y) with
    | some n =>
      rw [hhex] at h
      obtain rfl : n = w.length := h
      rw [hexExtent?_follow hz hhex]
    | none =>
      rw [hhex] at h
      have h : decimalExtent (w ++ y) = w.length := h
      rw [hexExtent?_follow_none hz hhex]
      · exact decimalExtent_follow hz h
      · refine fun _ => ⟨?_, ?_⟩ <;>
        · rintro rfl
          exact absurd h (by simp [decimalExtent])
  · rw [if_neg hc] at h ⊢
    exact decimalExtent_follow hz h

/-! ## Tokens -/

namespace Lexeme

variable {slashDivides : Bool} {kind : TokenKind}

/-- The token at the front of a text, if it is no comment. -/
def noComment (slashDivides : Bool) (c : Char) (cs : List Char) : Lexeme :=
  if c = '/' && !slashDivides then regex cs
  else match Punctuator.longest? (c :: cs) with
    | some (p, n) => ⟨.punctuator p, n - 1, none⟩
    | none =>
      if c = '"' || c = '\x27' then string c cs
      else if c = '\x60' then template cs
      else if c.isDigit then ⟨.number, numberExtent c cs, none⟩
      else if isWordStart c then word c cs
      else stray c cs

theorem noComment_kind_ne :
    (noComment slashDivides c cs).kind ≠ .comment := by
  have hword : (word c cs).kind ≠ .comment := by
    unfold word
    dsimp only
    split <;> simp
  unfold noComment
  split
  · simp [regex]
  split
  · simp
  split
  · simp [string]
  split
  · simp
  split
  · simp
  split
  · exact hword
  · simp [stray]

/-- Two slashes, or a slash and a star, open a comment, and nothing else
does. -/
theorem atFront_eq_noComment
    (h : c = '/' → ∀ rest, cs ≠ '/' :: rest ∧ cs ≠ '*' :: rest) :
    atFront slashDivides c cs = noComment slashDivides c cs := by
  unfold atFront
  split
  · exact absurd rfl (h rfl _).1
  · exact absurd rfl (h rfl _).2
  · rfl

/-- A comment begins with a slash. -/
theorem eq_slash_of_comment
    (h : (atFront slashDivides c cs).kind = .comment) : c = '/' := by
  refine Decidable.by_contra (fun hc => ?_)
  rw [atFront_eq_noComment (fun h => absurd h hc)] at h
  exact noComment_kind_ne h

theorem not_opens_of_kind_ne
    (h : (atFront slashDivides c cs).kind ≠ .comment) (hc : c = '/')
    (rest : List Char) : cs ≠ '/' :: rest ∧ cs ≠ '*' :: rest := by
  subst hc
  refine ⟨?_, ?_⟩ <;> rintro rfl <;> refine h ?_
  · rfl
  · exact blockComment_kind rest

theorem regex_follow (hz : MayFollow y z)
    (h : regex (w ++ y) = ⟨kind, w.length, none⟩) :
    regex (w ++ z) = ⟨kind, w.length, none⟩ := by
  obtain ⟨hkind, hextent, herror⟩ := Lexeme.mk.inj h
  have hregex : regexExtent false (w ++ y) 0 = (0 + w.length, none) :=
    Prod.ext (hextent.trans (Nat.zero_add _).symm) herror
  unfold regex
  rw [regexExtent_follow hregex hz, ← hkind, Nat.zero_add]

theorem string_follow (hc : c ≠ '\\')
    (h : string c (w ++ y) = ⟨kind, w.length, none⟩) (z : List Char) :
    string c (w ++ z) = ⟨kind, w.length, none⟩ := by
  obtain ⟨hkind, hextent, herror⟩ := Lexeme.mk.inj h
  have hstring : stringExtent c (w ++ y) 0 = (0 + w.length, none) :=
    Prod.ext (hextent.trans (Nat.zero_add _).symm) herror
  unfold string
  rw [stringExtent_follow hc hstring z, ← hkind, Nat.zero_add]

theorem template_follow (h : template (w ++ y) = ⟨kind, w.length, none⟩)
    (z : List Char) : template (w ++ z) = ⟨kind, w.length, none⟩ := by
  unfold template at h ⊢
  cases htemplate : templateExtent? (w ++ y) 0 with
  | none =>
    rw [htemplate] at h
    exact nomatch (Lexeme.mk.inj h).2.2
  | some n =>
    rw [htemplate] at h
    obtain ⟨hkind, rfl, _⟩ := Lexeme.mk.inj h
    rw [← Nat.zero_add w.length] at htemplate
    rw [templateExtent?_follow htemplate z, ← hkind, Nat.zero_add]

theorem word_follow (hz : MayFollow y z)
    (h : word c (w ++ y) = ⟨kind, w.length, none⟩) :
    word c (w ++ z) = ⟨kind, w.length, none⟩ := by
  have hlength : ((w ++ y).takeWhile isWordChar).length = w.length := by
    have hextent : (word c (w ++ y)).extent = w.length := by rw [h]
    rw [← hextent]
    unfold word
    dsimp only
    split <;> rfl
  have hsame : (w ++ z).takeWhile isWordChar
      = (w ++ y).takeWhile isWordChar := by
    rw [takeWhile_eq_of_length hlength]
    exact takeWhile_eq_of_length
      (takeWhile_follow (by decide) (by decide) hlength hz)
  unfold word at h ⊢
  rw [hsame]
  exact h

theorem noComment_follow (hz : MayFollow y z)
    (h : noComment slashDivides c (w ++ y) = ⟨kind, w.length, none⟩) :
    noComment slashDivides c (w ++ z) = ⟨kind, w.length, none⟩ := by
  unfold noComment at h ⊢
  by_cases hslash : (c = '/' && !slashDivides) = true
  · rw [if_pos hslash] at h ⊢
    exact regex_follow hz h
  rw [if_neg hslash] at h ⊢
  cases hmark : Punctuator.longest? (c :: (w ++ y)) with
  | some found =>
    obtain ⟨p, n⟩ := found
    rw [hmark] at h
    obtain ⟨hkind, hn, _⟩ := Lexeme.mk.inj h
    have hlength : n = (c :: w).length := by
      obtain ⟨s, hs, hp⟩ := Option.map_eq_some_iff.1 hmark
      have hne : s.1 ≠ [] := by
        have hall : (Punctuator.spelled.all fun s => !s.1.isEmpty) = true := by
          decide
        simpa using List.all_eq_true.mp hall s
          (List.mem_of_find?_eq_some hs)
      have hpos := List.length_pos_iff.2 hne
      have hn' : s.1.length = n := congrArg Prod.snd hp
      rw [List.length_cons]
      omega
    rw [← List.cons_append, hlength] at hmark
    rw [← List.cons_append, Punctuator.longest?_follow hz
      (List.cons_ne_nil c w) hmark, ← hkind]
    rfl
  | none =>
    rw [hmark] at h
    rw [← List.cons_append] at hmark
    rw [← List.cons_append, Punctuator.longest?_follow_none hz
      (List.cons_ne_nil c w) hmark]
    dsimp only at h ⊢
    by_cases hquote : (c = '"' || c = '\x27') = true
    · rw [if_pos hquote] at h ⊢
      refine string_follow ?_ h z
      rintro rfl
      exact absurd hquote (by decide)
    rw [if_neg hquote] at h ⊢
    by_cases htemplate : c = '\x60'
    · rw [if_pos htemplate] at h ⊢
      exact template_follow h z
    rw [if_neg htemplate] at h ⊢
    by_cases hdigit : c.isDigit = true
    · rw [if_pos hdigit] at h ⊢
      obtain ⟨hkind, hnumber, _⟩ := Lexeme.mk.inj h
      rw [numberExtent_follow hz hnumber, hkind]
    rw [if_neg hdigit] at h ⊢
    by_cases hword : isWordStart c = true
    · rw [if_pos hword] at h ⊢
      exact word_follow hz h
    · rw [if_neg hword] at h
      exact nomatch (Lexeme.mk.inj h).2.2

/-- A slash that is a token of its own is an operator. -/
theorem noComment_slash
    (h : noComment slashDivides '/' y = ⟨kind, 0, none⟩) :
    kind = .punctuator .slash := by
  unfold noComment at h
  split at h
  · obtain ⟨-, hextent, herror⟩ := Lexeme.mk.inj h
    exact absurd (lt_of_regexExtent (Prod.ext hextent herror))
      (Nat.lt_irrefl 0)
  · cases hmark : Punctuator.longest? ('/' :: y) with
    | none =>
      rw [hmark] at h
      exact absurd (Lexeme.mk.inj h).2.2 (Option.some_ne_none _)
    | some found =>
      obtain ⟨p, n⟩ := found
      rw [hmark] at h
      obtain ⟨hkind, hn, -⟩ := Lexeme.mk.inj h
      obtain ⟨s, hs, hp⟩ := Option.map_eq_some_iff.1 hmark
      obtain ⟨rfl, rfl⟩ := Prod.mk.inj hp
      have hfirst := List.find?_some hs
      rw [List.isPrefixOf_iff_prefix] at hfirst
      have hall : ∀ s ∈ Punctuator.spelled, s.1.length - 1 = 0 →
          s.1.head? = some '/' ∨ s.1 = [] → s.2 = .slash := by decide
      rw [← hkind, hall s (List.mem_of_find?_eq_some hs) hn]
      obtain ⟨rest, hrest⟩ := hfirst
      cases hmarks : s.1 with
      | nil => exact .inr rfl
      | cons d mark =>
        rw [hmarks] at hrest
        exact .inl (congrArg some (List.cons.inj hrest).1)

/-- **A token is known by its own text**: one with nothing wrong that is
no comment is found again whatever comes behind it now, as long as that
may follow it, and no other slash comes behind a slash. -/
theorem atFront_follow (hz : MayFollow y z) (hkind : kind ≠ .comment)
    (hslash : kind = .punctuator .slash → z.head? = some '/' →
      y.head? = some '/')
    (h : atFront slashDivides c (w ++ y) = ⟨kind, w.length, none⟩) :
    atFront slashDivides c (w ++ z) = ⟨kind, w.length, none⟩ := by
  have hopens := not_opens_of_kind_ne
    (show (atFront slashDivides c (w ++ y)).kind ≠ .comment by rwa [h])
  rw [atFront_eq_noComment hopens] at h
  rw [atFront_eq_noComment (fun hc rest => ?_)]
  · exact noComment_follow hz h
  · have hopens := hopens hc
    cases w with
    | cons d w =>
      refine ⟨fun heq => (hopens (w ++ y)).1 ?_,
        fun heq => (hopens (w ++ y)).2 ?_⟩ <;>
      · rw [List.cons_append] at heq ⊢
        rw [(List.cons.inj heq).1]
    | nil =>
      refine ⟨?_, ?_⟩ <;> rintro rfl
      · rw [hc] at h
        obtain ⟨y', rfl⟩ := List.head?_eq_some_iff.1
          (hslash (noComment_slash h) rfl)
        exact (hopens y').1 rfl
      · rcases hz.head with hfence | ⟨y', rfl⟩
        · exact absurd hfence (by decide)
        · exact (hopens y').2 rfl

/-- A comment with nothing wrong has a closing mark. -/
theorem commentExtent?_of_blockComment
    (h : blockComment cs = ⟨.comment, n, none⟩) :
    commentExtent? cs 1 = some n := by
  unfold blockComment at h
  split at h
  · obtain ⟨-, rfl, -⟩ := Lexeme.mk.inj h
    assumption
  · exact absurd (Lexeme.mk.inj h).2.2 (Option.some_ne_none _)

/-- A comment has a second character. -/
theorem exists_of_comment
    (h : (atFront slashDivides '/' cs).kind = .comment) :
    ∃ rest, cs = '/' :: rest ∨ cs = '*' :: rest := by
  refine Classical.byContradiction (fun hnot => ?_)
  rw [not_exists] at hnot
  rw [atFront_eq_noComment (fun _ rest => not_or.1 (hnot rest))] at h
  exact noComment_kind_ne h

/-- **A comment is known by its own text**, and, if it goes on to the end of
its line, by that. -/
theorem comment_follow
    (hz : w.head? = some '/' → ∀ d z', z = d :: z' →
      d = '\n' ∨ ∃ y', y = d :: y')
    (h : atFront slashDivides '/' (w ++ y) = ⟨.comment, w.length, none⟩) :
    atFront slashDivides '/' (w ++ z) = ⟨.comment, w.length, none⟩ := by
  obtain ⟨rest, hrest⟩ := exists_of_comment (congrArg Lexeme.kind h)
  cases w with
  | nil =>
    -- A comment has a second character.
    rcases hrest with hrest | hrest <;> rw [hrest] at h
    · have hextent : 1 + lineExtent rest = 0 := congrArg Lexeme.extent h
      omega
    · have hlt := lt_of_commentExtent? (commentExtent?_of_blockComment h)
      exact absurd hlt (by simp)
  | cons d w =>
    rcases hrest with hrest | hrest <;> obtain ⟨rfl, -⟩ := List.cons.inj hrest
    · have hextent : 1 + lineExtent (w ++ y) = w.length + 1 :=
        congrArg Lexeme.extent h
      have hline : (w ++ y).takeWhile (· ≠ '\n') = w :=
        takeWhile_eq_of_length (by unfold lineExtent at hextent; omega)
      have hsame : (w ++ z).takeWhile (· ≠ '\n') = w :=
        takeWhile_eq_follow hline (fun d z' hd =>
          (hz rfl d z' hd).imp_left (fun hd => by rw [hd]; rfl))
      show (⟨.comment, 1 + lineExtent (w ++ z), none⟩ : Lexeme) = _
      rw [lineExtent, hsame, List.length_cons, Nat.add_comm]
    · have hblock := commentExtent?_of_blockComment h
      rw [List.length_cons, Nat.add_comm] at hblock
      show blockComment (w ++ z) = _
      rw [blockComment, commentExtent?_follow hblock, List.length_cons,
        Nat.add_comm]

end Lexeme

end ScriptTree
