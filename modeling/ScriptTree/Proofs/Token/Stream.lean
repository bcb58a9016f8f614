import ScriptTree.Proofs.Token.Tiling

/-!
# The tokens from a place on

A scanner stands somewhere in its text, and the tokens from there on are
its stream. The stream of a scanner is its next token and the stream of
the scanner behind that, which is the form in which a proof follows it.

Some tokens of a stream are no part of the grammar: the comments, the line
breaks, and the end of the text. The others are the **significant** ones.
-/

namespace ScriptTree

/-- Whether the grammar is made of the token: it is neither a comment nor
a line break nor the end of the text. -/
def Token.isSignificant (t : Token) : Bool :=
  !t.kind.isExtra && !t.isEof

/-- **The significant tokens** of a text. -/
def significantTokens (source : List Char) : List Token :=
  (tokens source).filter Token.isSignificant

/-- Whether a token may be a regular expression that the scanner took for
a division. -/
def Token.isSlash (t : Token) : Bool :=
  t.isPunctuator .slash || t.isPunctuator .slashEq

theorem Token.isSlash_iff {t : Token} : t.isSlash = true
    ↔ t.kind = .punctuator .slash ∨ t.kind = .punctuator .slashEq := by
  simp [isSlash, isPunctuator]

theorem Token.isSignificant_of_isSlash {t : Token}
    (h : t.isSlash = true) : t.isSignificant = true := by
  rcases isSlash_iff.1 h with hk | hk <;>
    simp [isSignificant, isEof, hk, TokenKind.isExtra]

namespace Scanner

/-- The tokens from a scanner's place on. -/
def stream (s : Scanner) : List Token := (s.drainFrom []).1

variable {s : Scanner} {before : List Char}

theorem drainFrom_of_eof (h : s.next.1.isEof = true) (found : List Token) :
    (s.drainFrom found).1 = found.reverse ++ [s.next.1] := by
  rw [drainFrom, if_pos h]
  exact List.reverse_cons

theorem drainFrom_of_not_eof (h : s.next.1.isEof = false)
    (found : List Token) :
    s.drainFrom found = s.next.2.drainFrom (s.next.1 :: found) := by
  rw [drainFrom, if_neg (by rw [h]; exact Bool.false_ne_true)]

/-- What has been found is in front of what is found. -/
theorem drainFrom_eq (s : Scanner) (found : List Token) :
    (s.drainFrom found).1 = found.reverse ++ s.stream := by
  induction hn : s.rest.length using Nat.strongRecOn
    generalizing s found with
  | ind n ih =>
    unfold stream
    cases heof : s.next.1.isEof with
    | true => rw [drainFrom_of_eof heof, drainFrom_of_eof heof]; rfl
    | false =>
      have hlt := next_rest_length_lt s heof
      rw [drainFrom_of_not_eof heof, drainFrom_of_not_eof heof,
        ih _ (hn ▸ hlt) s.next.2 _ rfl, ih _ (hn ▸ hlt) s.next.2 _ rfl]
      simp

theorem stream_of_eof (h : s.next.1.isEof = true) :
    s.stream = [s.next.1] := drainFrom_of_eof h []

theorem stream_of_not_eof (h : s.next.1.isEof = false) :
    s.stream = s.next.1 :: s.next.2.stream := by
  unfold stream
  rw [drainFrom_of_not_eof h, drainFrom_eq]
  rfl

/-- The tokens from a place on tile what is left of the text. -/
theorem At.tokenStream (h : s.At before) :
    TokenStream before s.rest s.stream := by
  obtain ⟨ts, hts, hstream⟩ := s.drainFrom_stream [] h
  obtain rfl : s.stream = ts := hts
  exact hstream

/-- **Along the tokens from a place on**: what holds at the end of the text
and in front of each token, if it holds behind it, holds everywhere. -/
theorem stream_induction {motive : Scanner → Prop}
    (last : ∀ s : Scanner, s.next.1.isEof = true → motive s)
    (cons : ∀ s : Scanner, s.next.1.isEof = false → motive s.next.2 →
      motive s) (s : Scanner) : motive s := by
  induction hn : s.rest.length using Nat.strongRecOn generalizing s with
  | ind n ih =>
    cases heof : s.next.1.isEof with
    | true => exact last s heof
    | false =>
      exact cons s heof (ih _ (hn ▸ next_rest_length_lt s heof) _ rfl)

end Scanner

end ScriptTree
