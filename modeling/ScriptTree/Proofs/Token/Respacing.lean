import ScriptTree.Proofs.Token.Locality
import ScriptTree.Proofs.Token.Stream

/-!
# Tokens and the space between them

What lies between two tokens of the grammar says nothing about what they
are. If all of it is thrown away, and each token is put behind the one
before it with a single space, the tokens of the new text are the same
tokens (`tokens_respaced`).

Two scanners are followed, one in each text. They agree on the last token
of the grammar, and of what a scanner remembers a lexeme depends on nothing
else; the one in the new text finds at once, or behind a space, what the
other finds behind blanks, comments and line breaks.
-/

namespace ScriptTree

/-- **A token without its place**: its kind, its text, and what is wrong
with it. -/
def Token.unplaced (t : Token) : TokenKind × String × Option LexError :=
  (t.kind, t.text, t.error)

/-- **The significant tokens of a text with single spaces between
them.** -/
def respaced (source : List Char) : List Char :=
  [' '].intercalate ((significantTokens source).map (·.text.toList))

/-- Some texts, each with a space in front of it. -/
def spacedOut (texts : List (List Char)) : List Char :=
  texts.flatMap (' ' :: ·)

theorem spacedOut_cons (w : List Char) (texts : List (List Char)) :
    spacedOut (w :: texts) = ' ' :: (w ++ spacedOut texts) := rfl

/-- Spaces between texts are spaces in front of them, but for the first. -/
theorem intercalate_cons_eq (w : List Char) (texts : List (List Char)) :
    [' '].intercalate (w :: texts) = w ++ spacedOut texts := by
  induction texts generalizing w with
  | nil => simp [spacedOut]
  | cons v texts ih =>
    rw [List.intercalate_cons_cons, ih, spacedOut_cons]
    simp

/-- A space, or the end of the text, may follow any token. -/
theorem mayFollow_spacedOut (y : List Char) (texts : List (List Char)) :
    MayFollow y (spacedOut texts) := by
  refine ⟨[], List.nil_prefix, ?_⟩
  cases texts with
  | nil => exact .inl rfl
  | cons w texts => exact .inr ⟨_, _, rfl, rfl⟩

/-- A space is no slash. -/
theorem head?_spacedOut (texts : List (List Char)) :
    (spacedOut texts).head? ≠ some '/' := by
  cases texts with
  | nil => exact Option.some_ne_none _ |>.symm
  | cons w texts => simp [spacedOut_cons]

namespace Scanner

variable {s s' : Scanner}

theorem remember_previous_congr (h : s'.previous = s.previous)
    (kind : TokenKind) :
    (s'.remember kind).previous = (s.remember kind).previous := by
  unfold remember
  rw [h]
  split
  · exact h
  · rfl

/-- What is remembered of a token. -/
theorem next_previous (heof : s.next.1.isEof = false) :
    s.next.2.previous = (s.remember s.next.1.kind).previous := by
  have hkind : s.next.1.kind ≠ .eof := by simpa [Token.isEof] using heof
  unfold next read at hkind ⊢
  split at hkind
  · exact absurd rfl hkind
  · rfl
  · have htake : ∀ (kind : TokenKind) (n : Nat) (error : Option LexError),
        (s.settle.take kind n error).2.previous = s.previous :=
      fun _ _ _ => rfl
    exact remember_previous_congr (htake _ _ _) _

/-- A line break is forgotten with the next token of the grammar. -/
theorem remember_breakEmitted (s : Scanner) (kind : TokenKind) :
    (s.remember kind).breakEmitted
      = (kind.isExtra && s.breakEmitted) := by
  unfold remember
  cases hextra : kind.isExtra
  · rfl
  · rfl

/-- Whether a line break has been given out since. -/
theorem next_breakEmitted (heof : s.next.1.isEof = false) :
    s.next.2.breakEmitted = (s.next.1.kind = .lineBreak
      || (s.next.1.kind.isExtra && s.breakEmitted)) := by
  unfold next read at heof ⊢
  split
  · rename_i hrest
    simp [hrest, Token.isEof] at heof
  · simp
  · rename_i c cs _ _
    have hkind := (Lexeme.atFront_kind_ne
      (s.settle.previous.any TokenKind.canEndExpression) c cs).2
    dsimp only
    rw [remember_breakEmitted, take_kind, decide_eq_false hkind,
      Bool.false_or]
    rfl

/-- What is passed between two tokens of the grammar is not remembered. -/
theorem next_previous_of_isExtra (h : s.next.1.kind.isExtra = true) :
    s.next.2.previous = s.previous := by
  have heof : s.next.1.isEof = false := by
    cases hk : s.next.1.kind <;> simp_all [TokenKind.isExtra, Token.isEof]
  rw [next_previous heof]
  exact congrArg previous (if_pos h)

/-- The next token, if it is a lexeme. -/
theorem next_of_settle_rest {c : Char} {cs : List Char}
    (hrest : s.settle.rest = c :: cs) (hline : c ≠ '\n') :
    let lexeme :=
      Lexeme.atFront (s.previous.any TokenKind.canEndExpression) c cs
    s.next.1.unplaced = (lexeme.kind,
        String.ofList (c :: cs.take lexeme.extent), lexeme.error)
      ∧ s.next.2.rest = cs.drop lexeme.extent := by
  have hread := read_cons hrest hline
  have hprevious : s.settle.previous = s.previous := rfl
  rw [hprevious] at hread
  dsimp only at hread ⊢
  unfold next
  rw [hread]
  generalize Lexeme.atFront _ c cs = lexeme
  refine ⟨?_, ?_⟩
  · show (lexeme.kind, String.ofList (s.settle.rest.take (lexeme.extent + 1)),
      lexeme.error) = _
    rw [hrest, List.take_succ_cons]
  · rw [remember_rest, past_rest, hrest, List.drop_succ_cons]

/-- **The same token again**: where the characters of a significant token
stand in front of another scanner, it finds the token in them, if it
remembers the same token before and the text goes on with a space. -/
theorem next_of_before (hsig : s.next.1.isSignificant = true)
    (herror : s.next.1.error = none) (hprevious : s'.previous = s.previous)
    {texts : List (List Char)}
    (hbefore : s'.Before (s.next.1.text.toList ++ spacedOut texts)) :
    s'.next.1.unplaced = s.next.1.unplaced
      ∧ s'.next.2.rest = spacedOut texts := by
  obtain ⟨hextra, heof⟩ : s.next.1.kind.isExtra = false
      ∧ s.next.1.isEof = false := by
    simpa [Token.isSignificant] using hsig
  have hkind : s.next.1.kind ≠ .lineBreak ∧ s.next.1.kind ≠ .comment := by
    constructor <;>
    · intro h
      simp [h, TokenKind.isExtra] at hextra
  obtain ⟨c, cs, hrest, hblank, hline⟩ := exists_settle_rest heof hkind.1
  obtain ⟨hnext, -⟩ := next_of_settle_rest hrest hline
  have hextent := Lexeme.atFront_extent_le
    (s.previous.any TokenKind.canEndExpression) c cs
  -- The lexeme has its characters in front and the others behind it.
  generalize hlexeme : Lexeme.atFront
    (s.previous.any TokenKind.canEndExpression) c cs = lexeme
    at hnext hextent
  obtain ⟨kind, n, error⟩ := lexeme
  obtain ⟨rfl, htext, rfl⟩ : s.next.1.kind = kind
      ∧ s.next.1.text = String.ofList (c :: cs.take n)
      ∧ s.next.1.error = error := by
    simpa [Token.unplaced] using hnext
  have hlength : (cs.take n).length = n :=
    List.length_take_of_le hextent
  have hsame := Lexeme.atFront_follow
    (mayFollow_spacedOut (cs.drop n) texts) hkind.2
    (fun _ h => absurd h (head?_spacedOut texts))
    (by rw [List.take_append_drop, hlexeme, hlength, herror])
  rw [htext, String.toList_ofList, List.cons_append] at hbefore
  obtain ⟨hnext', hrest'⟩ :=
    next_of_settle_rest (hbefore.settle hblank hline).1 hline
  rw [hprevious, hsame] at hnext' hrest'
  refine ⟨?_, ?_⟩
  · rw [hnext', hnext, herror, List.take_left]
  · rw [hrest', List.drop_left]

/-- **All tokens again**: where the significant tokens that are left in a
text are what is left of another, spaces in front of them, the other text
has these tokens left, and the end. -/
theorem stream_of_spacedOut (herror : ∀ t ∈ s.stream, t.error = none)
    (hprevious : s'.previous = s.previous) {texts : List (List Char)}
    (htexts : (s.stream.filter Token.isSignificant).map (·.text.toList)
      = texts)
    (hrest : s'.rest = spacedOut texts ∨ s'.rest = [' '].intercalate texts) :
    s'.stream.map Token.unplaced
      = (s.stream.filter Token.isSignificant).map Token.unplaced
        ++ [(.eof, "", none)] := by
  induction s using stream_induction generalizing s' texts with
  | last s heof =>
    rw [stream_of_eof heof] at htexts ⊢
    have hsig : s.next.1.isSignificant = false := by
      simp [Token.isSignificant, heof]
    rw [List.filter_cons_of_neg (by simp [hsig])] at htexts ⊢
    subst htexts
    have hrest' : s'.rest = [] := hrest.elim id id
    have hnext := next_of_rest hrest'
    rw [stream_of_eof (by rw [hnext]; rfl), hnext]
    rfl
  | cons s heof ih =>
    rw [stream_of_not_eof heof] at herror htexts ⊢
    have herror' := fun t ht => herror t (List.mem_cons_of_mem _ ht)
    by_cases hsig : s.next.1.isSignificant = true
    · rw [List.filter_cons_of_pos hsig, List.map_cons] at htexts
      rw [List.filter_cons_of_pos hsig, List.map_cons]
      subst htexts
      have hbefore : s'.Before (s.next.1.text.toList ++ spacedOut
          ((s.next.2.stream.filter Token.isSignificant).map
            (·.text.toList))) := by
        rw [spacedOut_cons, intercalate_cons_eq] at hrest
        exact hrest.symm
      obtain ⟨hnext, hrest'⟩ := next_of_before hsig
        (herror _ List.mem_cons_self) hprevious hbefore
      have hkind : s'.next.1.kind = s.next.1.kind := congrArg Prod.fst hnext
      have heof' : s'.next.1.isEof = false := by
        rw [Token.isEof, hkind]
        exact heof
      have hprevious' : s'.next.2.previous = s.next.2.previous := by
        rw [next_previous heof, next_previous heof', hkind]
        exact remember_previous_congr hprevious _
      rw [stream_of_not_eof heof', List.map_cons,
        ih herror' hprevious' rfl (.inl hrest'), hnext]
      rfl
    · rw [List.filter_cons_of_neg hsig] at htexts ⊢
      refine ih herror' (hprevious.trans ?_) htexts hrest
      refine (next_previous_of_isExtra ?_).symm
      simpa [Token.isSignificant, heof] using hsig

end Scanner

/-- **Tokens do not depend on what lies between them.** If nothing is wrong
with the tokens of a text, its significant tokens with single spaces
between them make a text that has the same tokens, each of the same kind
and text with nothing wrong with it, and no others but the end. -/
theorem tokens_respaced {source : List Char}
    (h : ∀ t ∈ tokens source, t.error = none) :
    (tokens (respaced source)).map Token.unplaced
      = (significantTokens source).map Token.unplaced
        ++ [(.eof, "", none)] :=
  Scanner.stream_of_spacedOut h rfl rfl (.inr rfl)

/-- A regular expression stays one, and so does the member behind a comment
and a line break: the new text is `x = /a b/g . y`. -/
theorem tokens_respaced_regex :
    (∀ t ∈ tokens "x=/a b/g// c\n.y".toList, t.error = none)
      ∧ (tokens (respaced "x=/a b/g// c\n.y".toList)).map Token.unplaced
        = (significantTokens "x=/a b/g// c\n.y".toList).map Token.unplaced
          ++ [(.eof, "", none)] := by
  have h : ∀ t ∈ tokens "x=/a b/g// c\n.y".toList, t.error = none := by
    decide +kernel
  exact ⟨h, tokens_respaced h⟩

end ScriptTree
