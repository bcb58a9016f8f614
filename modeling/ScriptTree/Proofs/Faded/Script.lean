import ScriptTree.Proofs.Break.Brackets
import ScriptTree.Proofs.Faded.Text

/-!
# Comments are trivia

Spaces in place of the comments of a script make no difference to its
statements, if nothing is wrong with it (`parse_fadeComments`). It does not
matter whether this is known of the script with its comments or of the one
without them.

It is not so for every script. What the scanner takes for a comment may be a
piece of something else for the parse, which reads slashes again as regular
expressions: it may lie in a token (`TokensApart`), it may end another
comment (`CommentsLast`), or it may become the second slash of one
(`SlashesApart`). And a comment may hide a dot from the line break before it,
which then ends a statement, except where line breaks do not matter
(`DotsFree`). None of the four can be left out (`not_forall_quietlyEqual`).
-/

namespace ScriptTree

/-- **Two answers without a problem** that have the same statements. -/
structure Outcome.QuietlyEqual (o o' : Outcome) : Prop where
  /-- The one has no problem. -/
  quiet : o.diagnostics = []
  /-- Neither has the other. -/
  quiet' : o'.diagnostics = []
  /-- The statements are the same, spans included. -/
  body_eq : o'.program.body = o.program.body

/-! ## What a parse makes of the comments -/

/-- **No token that is read of a text** overlaps a comment of the source. -/
def TokensApart (source text : List Char) : Prop :=
  ∀ t ∈ readTokens text, ∀ p ∈ commentSpans (tokens source),
    t.span.stop ≤ p.start ∨ p.stop ≤ t.span.start

/-- **Comments of the source are comments of a text**, or they lie apart from
these, or in one of them, which is a comment in the other text, too. -/
def CommentsLast (source text other : List Char) : Prop :=
  ∀ c ∈ (parse text).program.comments, ∀ p ∈ commentSpans (tokens source),
    p = c.span ∨ c.span.stop ≤ p.start ∨ p.stop ≤ c.span.start
      ∨ c.span.start ≤ p.start ∧ p.stop ≤ c.span.stop
        ∧ IsComment (c.span.slice other) []

/-- **No slash that is read of a text** stands right in front of a comment of
the source. -/
def SlashesApart (source text : List Char) : Prop :=
  ∀ t ∈ readTokens text, t.kind = .punctuator .slash →
    ∀ p ∈ commentSpans (tokens source), p.start ≠ t.span.stop

/-- **Where comments hide a dot** from a line break between the tokens of a
text, line breaks do not matter: the place is between brackets, and in none
of the blocks there. -/
def DotsFree (source text : List Char) : Prop :=
  ∀ q ∈ hiddenDots source, LiesBetween text q →
    (parse text).program.IsFreeAt q

/-- **A parse of a text that reads around the comments of a source.** The
other text is the source if the text is the one without comments, and the
other way round. -/
structure ReadsAround (source text other : List Char) : Prop where
  /-- There is nothing to complain about. -/
  quiet : (parse text).diagnostics = []
  /-- The comments overlap no token. -/
  token : TokensApart source text
  /-- They leave the comments of the text. -/
  comment : CommentsLast source text other
  /-- They hide no dot where line breaks matter. -/
  dot : DotsFree source text

instance (source text : List Char) : Decidable (TokensApart source text) :=
  inferInstanceAs (Decidable (∀ t ∈ _, ∀ p ∈ _, _))

instance (source text other : List Char) :
    Decidable (CommentsLast source text other) :=
  inferInstanceAs (Decidable (∀ c ∈ _, ∀ p ∈ _, _))

instance (source text : List Char) : Decidable (SlashesApart source text) :=
  inferInstanceAs (Decidable (∀ t ∈ _, _ → ∀ p ∈ _, _))

/-- No comment of a text is empty. -/
theorem start_lt_stop_of_mem_commentSpans {source : List Char} {p : Span}
    (hp : p ∈ commentSpans (tokens source)) : p.start < p.stop := by
  obtain ⟨t, ht, rfl⟩ := List.mem_map.1 hp
  obtain ⟨ht, hkind⟩ := List.mem_filter.1 ht
  have hkind : t.kind = .comment := of_decide_eq_true hkind
  exact ((tokens_stream source).fits t ht
    (by rw [hkind]; decide)).1.start_lt_stop

/-- **The patches are not seen** by a parse that reads around the comments. -/
theorem ReadsAround.unseen {filling : Filling}
    {source text other : List Char} (h : ReadsAround source text other)
    (hpatched : Patched (.fading filling source {q | LiesBetween text q}) 0
      text other)
    (hbreak : filling ≠ .lineBreak)
    (hslash : filling = .spaces → SlashesApart source text) :
    (Patches.fading filling source {q | LiesBetween text q}).Unseen text
      other where
  quiet := h.quiet
  patched := hpatched
  pos _ hp := start_lt_stop_of_mem_commentSpans hp
  token := h.token
  slash := hslash
  comment := h.comment
  line hf := absurd hf hbreak
  breaks _ hq := hq

/-! ## The parse without the comments -/

/-- **Spaces in place of comments** make no difference to a script in which
nothing is wrong, with its comments or without, if the parse reads around
them. -/
theorem parse_fadeComments (source : List Char)
    (hclear : ∀ t ∈ tokens source, t.error = none)
    (haround : ReadsAround source source (fadeComments source)
      ∨ ReadsAround source (fadeComments source) source
        ∧ SlashesApart source (fadeComments source)) :
    (parse source).QuietlyEqual (parse (fadeComments source)) := by
  rcases haround with h | ⟨h, hslash⟩
  · have hunseen := h.unseen (patched_fadeComments _ hclear)
      Filling.noConfusion Filling.noConfusion
    obtain ⟨hquiet, hbody⟩ :=
      hunseen.parse_eq_of_free (fun q hq => h.dot q hq.1 hq.2)
    exact ⟨h.quiet, hquiet, hbody⟩
  · have hunseen := h.unseen (patched_fadeComments _ hclear).swap
      Filling.noConfusion (fun _ => hslash)
    obtain ⟨hquiet, hbody⟩ :=
      hunseen.parse_eq_of_free (fun q hq => h.dot q hq.1 hq.2)
    exact ⟨hquiet, h.quiet, hbody.symm⟩

/-- A regular expression that begins with a slash for the scanner, with a
comment before it and one behind it, and a comment that hides a dot, but
between brackets. -/
theorem parse_fadeComments_call :
    let source := "if (a /* é */) /b/.c(d) // e\nf = g(h\n/* i */.j)".toList
    (∀ t ∈ tokens source, t.error = none) ∧ hiddenDots source ≠ []
      ∧ ReadsAround source source (fadeComments source)
      ∧ (parse source).QuietlyEqual (parse (fadeComments source)) := by
  intro source
  have hclear : ∀ t ∈ tokens source, t.error = none := by decide +kernel
  have hfree : ∀ q ∈ hiddenDots source, (parse source).program.IsFreeAt q := by
    decide +kernel
  have haround : ReadsAround source source (fadeComments source) :=
    ⟨by decide +kernel, by decide +kernel, by decide +kernel,
      fun q hq _ => hfree q hq⟩
  exact ⟨hclear, by decide +kernel, haround,
    parse_fadeComments source hclear (.inl haround)⟩

/-- **Comments are more than trivia** in some scripts, although nothing is
wrong with their tokens, and there is nothing to complain about with their
comments or without. A comment may hide a dot from a line break that ends a
statement; it may lie in a regular expression; it may end another comment; and
it may follow a division. -/
theorem not_forall_quietlyEqual :
    (¬∀ source : List Char, (∀ t ∈ tokens source, t.error = none) →
        (parse source).diagnostics = []
          ∨ (parse (fadeComments source)).diagnostics = [] →
        (parse source).QuietlyEqual (parse (fadeComments source)))
      ∧ (∃ source, (∀ t ∈ tokens source, t.error = none)
        ∧ (parse (fadeComments source)).diagnostics = []
        ∧ TokensApart source (fadeComments source)
        ∧ CommentsLast source (fadeComments source) source
        ∧ SlashesApart source (fadeComments source)
        ∧ ¬(parse source).QuietlyEqual (parse (fadeComments source)))
      ∧ (∃ source, (∀ t ∈ tokens source, t.error = none)
        ∧ (parse source).diagnostics = []
        ∧ CommentsLast source source (fadeComments source)
        ∧ DotsFree source source
        ∧ ¬(parse source).QuietlyEqual (parse (fadeComments source)))
      ∧ (∃ source, (∀ t ∈ tokens source, t.error = none)
        ∧ (parse source).diagnostics = []
        ∧ TokensApart source source
        ∧ DotsFree source source
        ∧ ¬(parse source).QuietlyEqual (parse (fadeComments source)))
      ∧ ∃ source, (∀ t ∈ tokens source, t.error = none)
        ∧ ReadsAround source (fadeComments source) source
        ∧ ¬(parse source).QuietlyEqual (parse (fadeComments source)) := by
  have hleaves {o o' : Outcome} (h : o.QuietlyEqual o') :
      (o'.program.body.map (fun x => (Node.statement x).leaves.length)).sum
        = (o.program.body.map
            (fun x => (Node.statement x).leaves.length)).sum := by
    rw [h.body_eq]
  have hnone {source text : List Char} (h : hiddenDots source = []) :
      DotsFree source text := by
    intro q hq
    rw [h] at hq
    exact absurd hq List.not_mem_nil
  refine ⟨fun h => ?_, ⟨"a\n/*c*/.b".toList, ?_⟩,
    ⟨"if (a) /b/*c*/d/".toList, ?_⟩,
    ⟨"if (a) /\"/ /* \"/*c*/\nb".toList, ?_⟩,
    ⟨"if (a) /(/ + b //*c*/ 2".toList, ?_⟩⟩
  · have hequal := h "a\n/*c*/.b".toList (by decide +kernel)
      (.inr (by decide +kernel))
    have hproblem : (parse "a\n/*c*/.b".toList).diagnostics ≠ [] := by
      decide +kernel
    exact hproblem hequal.quiet
  · refine ⟨by decide +kernel, by decide +kernel, by decide +kernel,
      by decide +kernel, by decide +kernel, fun hequal => ?_⟩
    have hproblem : (parse "a\n/*c*/.b".toList).diagnostics ≠ [] := by
      decide +kernel
    exact hproblem hequal.quiet
  · refine ⟨by decide +kernel, by decide +kernel, by decide +kernel,
      hnone (by decide +kernel), fun hequal => ?_⟩
    have hlength := hleaves hequal
    revert hlength
    decide +kernel
  · refine ⟨by decide +kernel, by decide +kernel, by decide +kernel,
      hnone (by decide +kernel), fun hequal => ?_⟩
    have hproblem : (parse (fadeComments
        "if (a) /\"/ /* \"/*c*/\nb".toList)).diagnostics ≠ [] := by
      decide +kernel
    exact hproblem hequal.quiet'
  · refine ⟨by decide +kernel, ⟨by decide +kernel, by decide +kernel,
      by decide +kernel, hnone (by decide +kernel)⟩, fun hequal => ?_⟩
    have hlength := hleaves hequal
    revert hlength
    decide +kernel

end ScriptTree
