import ScriptTree.Proofs.Patch.Text
import ScriptTree.Proofs.Token.Stream

/-!
# A text without its comments

The tokens of a text tile it, and so one can take the text apart, put
spaces in place of its comments, and put it together again
(`fadeComments`). One space stands for each byte, and hence no other token
moves: the comments are patched, and nothing else (`patched_fadeComments`).
This is shown for a scanner anywhere in the text, with what is left to read
behind it (`Scanner.faded`).

A comment may hide a dot from the line break before it. Without the comment
a chain goes on there (`hiddenDots`).
-/

namespace ScriptTree

/-! ## The text -/

/-- **What is left of a token**: nothing but blanks of a comment, and all
of any other. -/
def Token.faded (t : Token) : List Char :=
  if t.kind = .comment then List.replicate (byteLength t.text.toList) ' '
  else t.text.toList

/-- Gaps and what is left of tokens, put together. -/
def fadedFrom (source : List Char) (offset : Nat) (ts : List Token) :
    List Char :=
  ((gapsFrom offset ts).zip ts).flatMap
    (fun p => p.1.slice source ++ p.2.faded)

/-- **A text with spaces in place of its comments**, one for each byte. -/
def fadeComments (source : List Char) : List Char :=
  fadedFrom source 0 (tokens source)

/-! ## The text from a place on -/

namespace Scanner

/-- **What is left to read**, with spaces in place of the comments. -/
def faded (s : Scanner) : List Char :=
  fadedFrom s.source s.position.offset s.stream

variable {s : Scanner} {before gap text : List Char}

/-- Where nothing but the end is left, nothing fades. -/
theorem faded_of_eof (h : s.At before) (heof : s.next.1.isEof = true) :
    s.faded = s.rest := by
  obtain ⟨gap, text, hread⟩ := next_reads h
  obtain rfl : text = [] := hread.text_eq_nil_iff.2 heof
  have hslice := TokenStream.slice_gap hread.spells []
  have hrest : s.rest = gap := by
    rw [hread.rest_eq, hread.rest_of_eof heof]
    simp
  unfold faded fadedFrom
  rw [stream_of_eof heof, h.source_eq, h.position_eq, hrest]
  rw [List.append_nil] at hslice
  have hempty : s.next.1.faded = [] := by
    unfold Token.faded
    rw [hread.spells.text_eq, if_neg]
    · rfl
    · intro hkind
      simp [Token.isEof, hkind] at heof
  simp [gapsFrom, hslice, hempty]

/-- **The gap, what is left of the token, and what is left behind it.** -/
theorem faded_of_reads (h : s.At before)
    (hread : s.Reads before gap text s.next.1 s.next.2)
    (heof : s.next.1.isEof = false) :
    s.faded = gap ++ (s.next.1.faded ++ s.next.2.faded) := by
  have hslice := TokenStream.slice_gap hread.spells (text ++ s.next.2.rest)
  have hstop : s.next.1.span.stop = s.next.2.position.offset := by
    rw [hread.at_behind.position_eq, hread.spells.span_eq,
      Position.after_offset, byteLength_append _ text]
  unfold faded fadedFrom
  rw [stream_of_not_eof heof, hread.source_eq, ← hstop, gapsFrom,
    List.zip_cons_cons, List.flatMap_cons, List.append_assoc]
  rw [h.source_eq, h.position_eq, hread.rest_eq, Position.after_offset,
    hslice]

end Scanner

/-! ## What is left of a token -/

namespace Token

variable {t : Token} {before text : List Char}

/-- A comment leaves spaces. -/
theorem faded_of_comment (hkind : t.kind = .comment)
    (hspells : t.Spells before text) : t.faded = blanked text := by
  rw [faded, if_pos hkind, hspells.text_eq, String.toList_ofList, blanked]

theorem faded_of_ne_comment (hkind : t.kind ≠ .comment)
    (hspells : t.Spells before text) : t.faded = text := by
  rw [faded, if_neg hkind, hspells.text_eq, String.toList_ofList]

end Token

/-- **A comment that is read** is one by its text, if nothing is wrong with
it. -/
theorem Scanner.Reads.isComment {s : Scanner}
    {before gap text : List Char}
    (h : s.Reads before gap text s.next.1 s.next.2)
    (hkind : s.next.1.kind = .comment) (herror : s.next.1.error = none) :
    IsComment text s.next.2.rest := by
  have htext : text = s.next.1.text.toList := by
    rw [h.spells.text_eq, String.toList_ofList]
  rw [htext]
  unfold next at hkind herror ⊢
  generalize s.settle = y at hkind herror ⊢
  cases hrest : y.rest with
  | nil =>
    unfold read at hkind
    rw [hrest] at hkind
    cases hkind
  | cons c cs =>
    by_cases hline : c = '\n'
    · subst hline
      unfold read at hkind
      rw [hrest] at hkind
      cases hkind
    · have hread := read_cons hrest hline
      have hextent := Lexeme.atFront_extent_le
        (y.previous.any TokenKind.canEndExpression) c cs
      generalize hlexeme : Lexeme.atFront
        (y.previous.any TokenKind.canEndExpression) c cs = lexeme
        at hread hextent
      obtain ⟨kind, n, error⟩ := lexeme
      rw [hread] at hkind herror ⊢
      obtain rfl : kind = .comment := hkind
      obtain rfl : error = none := herror
      obtain rfl : c = '/' := Lexeme.eq_slash_of_comment (by rw [hlexeme])
      show IsComment (String.ofList (y.rest.take (n + 1))).toList
        ((y.past (n + 1)).remember .comment).rest
      rw [remember_rest, past_rest, String.toList_ofList, hrest,
        List.take_succ_cons, List.drop_succ_cons]
      refine ⟨rfl, ?_⟩
      rw [List.tail_cons, List.take_append_drop, List.length_cons,
        List.length_take_of_le hextent,
        Lexeme.atFront_of_comment (congrArg Lexeme.kind hlexeme), hlexeme]
      rfl

/-! ## The patches -/

/-- What is behind the line break at an offset of a text, if there is one. -/
def behindBreak? (text : List Char) (q : Nat) : Option (List Char) :=
  (splitAtByte? text q).bind (fun cut =>
    if cut.2.head? = some '\n' then some cut.2.tail else none)

/-- **The line breaks of a text from which a comment hides a dot**, by their
offsets: behind them a chain goes on in the text without comments, but not
in the text with them. -/
def hiddenDots (source : List Char) : List Nat :=
  (List.range (byteLength source)).filter (fun q =>
    (behindBreak? source q).any (fun behind =>
      (behindBreak? (fadeComments source) q).any (fun behind' =>
        Scanner.continuesChain behind' != Scanner.continuesChain behind)))

theorem behindBreak?_eq (before behind : List Char) :
    behindBreak? (before ++ '\n' :: behind) (byteLength before)
      = some behind := by
  have hcut : splitAtByte? (before ++ '\n' :: behind) (byteLength before)
      = some (before, '\n' :: behind) :=
    splitAtByte?_eq_some_iff.2 ⟨rfl, rfl⟩
  unfold behindBreak?
  rw [hcut]
  rfl

/-- A line break behind which a chain goes on in one text only is among
them. -/
theorem mem_hiddenDots {source before before' behind behind' : List Char}
    (hsource : source = before ++ '\n' :: behind)
    (hfaded : fadeComments source = before' ++ '\n' :: behind')
    (hlength : byteLength before' = byteLength before)
    (hne : Scanner.continuesChain behind' ≠ Scanner.continuesChain behind) :
    byteLength before ∈ hiddenDots source := by
  have hbehind := behindBreak?_eq before behind
  have hbehind' := behindBreak?_eq before' behind'
  rw [← hsource] at hbehind
  rw [← hfaded, hlength] at hbehind'
  refine List.mem_filter.2 ⟨List.mem_range.2 ?_, ?_⟩
  · rw [hsource, byteLength_append]
    exact Nat.lt_add_of_pos_right (byteLength_pos (List.cons_ne_nil _ _))
  · rw [hbehind, hbehind']
    exact bne_iff_ne.2 hne

/-- **The patches between a text and the one without its comments**, where
line breaks are of account at some offsets. -/
def Patches.fading (filling : Filling) (source : List Char)
    (breaks : Set Nat) : Patches where
  filling := filling
  spans := {p | p ∈ commentSpans (tokens source)}
  breaks := breaks
  spots := {q | q ∈ hiddenDots source ∧ q ∈ breaks}

section Fading

variable {source before before' w y z : List Char} {breaks : Set Nat}

/-- **The same piece in front** of what is patched. -/
theorem Patched.append_left_fading (hsource : source = before ++ (w ++ y))
    (hfaded : fadeComments source = before' ++ (w ++ z))
    (hlength : byteLength before' = byteLength before)
    (h : Patched (.fading .comment source breaks)
      (byteLength before + byteLength w) y z) :
    Patched (.fading .comment source breaks) (byteLength before) (w ++ y)
      (w ++ z) := by
  refine h.append_left (fun u v hw hbreak hspot => ?_)
  by_contra hne
  refine hspot ⟨?_, hbreak⟩
  rw [← byteLength_append]
  refine mem_hiddenDots ?_ ?_
    (?_ : byteLength (before' ++ u) = byteLength (before ++ u)) hne
  · rw [hsource, hw]
    simp
  · rw [hfaded, hw]
    simp
  · rw [byteLength_append, byteLength_append, hlength]

/-- **What is left of a text is patched** to be what is left of the one
without its comments. -/
theorem Scanner.patched_faded {s : Scanner}
    (hclear : ∀ t ∈ tokens source, t.error = none) (h : s.At before)
    (hsource : s.source = source)
    (hmem : ∀ t ∈ s.stream, t ∈ tokens source)
    (hfaded : fadeComments source = before' ++ s.faded)
    (hlength : byteLength before' = byteLength before) :
    Patched (.fading .comment source breaks) (byteLength before) s.rest
      s.faded := by
  induction hn : s.rest.length using Nat.strongRecOn
    generalizing s before before' with
  | ind n ih =>
    cases heof : s.next.1.isEof with
    | true =>
      rw [faded_of_eof h heof]
      exact .refl _ _ _
    | false =>
      obtain ⟨gap, text, hread⟩ := next_reads h
      have hstream := stream_of_not_eof heof
      have hnext := hmem _ (hstream ▸ List.mem_cons_self)
      rw [faded_of_reads h hread heof] at hfaded ⊢
      have hwhole := hsource.symm.trans h.source_eq
      rw [hread.rest_eq] at hwhole ⊢
      have hbehind (w : List Char) (hw : byteLength w = byteLength text)
          (hfaded : fadeComments source
            = before' ++ (gap ++ (w ++ s.next.2.faded))) :
          Patched (.fading .comment source breaks)
            (byteLength before + byteLength gap + byteLength text)
            s.next.2.rest s.next.2.faded := by
        have hshort := hn ▸ next_rest_length_lt s heof
        have hpatched := ih _ hshort hread.at_behind
          (hread.source_eq.trans hsource)
          (fun t ht => hmem t (hstream ▸ List.mem_cons_of_mem _ ht))
          (hfaded.trans (by simp) : fadeComments source
            = before' ++ gap ++ w ++ s.next.2.faded)
          (by simp [hw, hlength]) rfl
        rwa [byteLength_append, byteLength_append] at hpatched
      refine .append_left_fading hwhole hfaded hlength ?_
      by_cases hkind : s.next.1.kind = .comment
      · rw [Token.faded_of_comment hkind hread.spells] at hfaded ⊢
        refine .patch (.comment (hread.isComment hkind (hclear _ hnext)) _)
          ?_ Filling.noConfusion
          (hbehind _ (byteLength_blanked text) hfaded)
        refine List.mem_map.2 ⟨_, List.mem_filter.2
          ⟨hnext, decide_eq_true hkind⟩, ?_⟩
        rw [hread.spells.span_eq, byteLength_append]
      · rw [Token.faded_of_ne_comment hkind hread.spells] at hfaded ⊢
        rw [← byteLength_append]
        refine .append_left_fading ?_ ?_
          (?_ : byteLength (before' ++ gap) = byteLength (before ++ gap)) ?_
        · rw [hwhole, List.append_assoc]
        · rw [hfaded, List.append_assoc]
        · rw [byteLength_append, byteLength_append, hlength]
        · rw [byteLength_append]
          exact hbehind _ rfl hfaded

/-- **A text is patched** to be the one without its comments. -/
theorem patched_fadeComments (breaks : Set Nat)
    (hclear : ∀ t ∈ tokens source, t.error = none) :
    Patched (.fading .comment source breaks) 0 source
      (fadeComments source) :=
  Scanner.patched_faded hclear (Scanner.ofSource_at source) rfl
    (fun _ ht => ht) (List.nil_append _).symm rfl

end Fading

end ScriptTree
