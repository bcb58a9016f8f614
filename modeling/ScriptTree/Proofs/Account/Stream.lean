import ScriptTree.Proofs.Account.Act
import ScriptTree.Proofs.Token.Stream

/-!
# The tokens of a parse and those of the text

A parse looks for one token after the other, and so what it knows and what
is left to its scanner are together the significant tokens of the text: the
state **follows** the text (`State.Follows`).

It goes another way where a slash is read again as a regular expression,
for the tokens of the text tell of a slash there. From then on the parse
**strays** from them (`State.Strays`), and it does so for good, since the
regular expression stays one of the tokens it knows.
-/

namespace ScriptTree

namespace Scanner

variable {s : Scanner} {before : List Char}

/-- Where nothing is left there is no significant token. -/
theorem filter_stream_of_rest (h : s.rest = []) :
    s.stream.filter Token.isSignificant = [] := by
  rw [stream_of_eof (by rw [next_of_rest h]; rfl), next_of_rest h]
  rfl

theorem nextSignificantFrom_stream (h : s.At before)
    (found : List Token) :
    s.stream.filter Token.isSignificant
      = ((s.nextSignificantFrom found).token
          :: (s.nextSignificantFrom found).scanner.stream).filter
        Token.isSignificant := by
  fun_induction nextSignificantFrom s found generalizing before with
  | case1 s found step hextra =>
    rename_i ih
    change s.next.1.kind.isExtra = true at hextra
    have heof : s.next.1.isEof = false := by
      cases hk : s.next.1.kind <;> simp_all [TokenKind.isExtra, Token.isEof]
    have hsig : ¬s.next.1.isSignificant = true := by
      simp [Token.isSignificant, hextra]
    obtain ⟨gap, text, hread⟩ := next_reads h
    rw [stream_of_not_eof heof, List.filter_cons_of_neg hsig]
    exact ih hread.at_behind
  | case2 s found step =>
    cases heof : s.next.1.isEof with
    | true =>
      obtain ⟨gap, text, hread⟩ := next_reads h
      have hbehind := filter_stream_of_rest (hread.rest_of_eof heof)
      show _ = (s.next.1 :: s.next.2.stream).filter _
      rw [stream_of_eof heof, List.filter_cons, List.filter_cons, hbehind]
      rfl
    | false => rw [stream_of_not_eof heof]

/-- **The next token of the grammar** is the first of the significant
tokens, if there is one. -/
theorem nextSignificant_stream (h : s.At before) :
    s.stream.filter Token.isSignificant
      = (s.nextSignificant.token
          :: s.nextSignificant.scanner.stream).filter Token.isSignificant :=
  nextSignificantFrom_stream h []

end Scanner

/-- **A regular expression in the place of a slash**: the tokens of the
text tell of a slash where the token begins. -/
def Token.Replaces (source : List Char) (x : Token) : Prop :=
  x.kind = .regex
    ∧ ∃ y ∈ tokens source, y.isSlash = true ∧ y.span.start = x.span.start

namespace State

variable {root : Context} {s t : State}

/-- **A state that follows the text**: what it knows and what is left are
the significant tokens of the text. -/
def Follows (root : Context) (s : State) : Prop :=
  significantTokens root.source
    = (s.known.reverse ++ s.scanner.stream).filter Token.isSignificant

/-- **A state that has strayed from the text** with one of the tokens it
knows. -/
def Strays (root : Context) (s : State) : Prop :=
  ∃ x ∈ s.known, x.Replaces root.source

theorem blank_follows (root : Context) :
    (blank root.source).Follows root := rfl

theorem Follows.congr (h : s.Follows root) (hknown : t.known = s.known)
    (hscanner : t.scanner = s.scanner) : t.Follows root := by
  unfold Follows
  rw [hknown, hscanner]
  exact h

theorem Follows.bump (h : s.Follows root) (hstands : s.Stands root) :
    (s.bump root).Follows root := by
  obtain ⟨front, hat, _⟩ := hstands.at_stop
  have hscanner :
      (s.bump root).scanner = s.scanner.nextSignificant.scanner := by
    obtain ⟨t, _, heq⟩ := bump_eq root s
    rw [heq]
  unfold Follows
  rw [h, bump_known, hscanner, List.reverse_cons, List.append_assoc,
    List.filter_append, List.filter_append,
    Scanner.nextSignificant_stream hat]
  rfl

theorem Strays.bump (h : s.Strays root) : (s.bump root).Strays root := by
  obtain ⟨x, hx, hreplaces⟩ := h
  exact ⟨x, bump_known root s ▸ List.mem_cons_of_mem _ hx, hreplaces⟩

/-- A token of the text is known by a state that follows it. -/
theorem Follows.mem_tokens (h : s.Follows root) {x : Token}
    (hx : x ∈ s.known) (hsig : x.isSignificant = true) :
    x ∈ tokens root.source := by
  have hmem : x ∈ significantTokens root.source := by
    rw [h]
    refine List.mem_filter.2 ⟨List.mem_append_left _ ?_, hsig⟩
    exact List.mem_reverse.2 hx
  exact (List.mem_filter.1 hmem).1

/-- **Reading a slash again** is where a state strays. -/
theorem Follows.rescanRegex (h : s.Follows root) (hs : s.Good root)
    (slash : s.current.isSlash = true) : (s.rescanRegex root).Strays root := by
  obtain ⟨_, hhere, hkind⟩ := rescanRegex_good hs (Token.isSlash_iff.1 slash)
  refine ⟨_, List.mem_cons_self, hkind, s.current, ?_, slash, hhere.symm⟩
  exact h.mem_tokens List.mem_cons_self
    (Token.isSignificant_of_isSlash slash)

theorem Strays.rescanRegex (h : s.Strays root)
    (slash : s.current.isSlash = true) : (s.rescanRegex root).Strays root := by
  obtain ⟨x, hx, hreplaces⟩ := h
  refine ⟨x, ?_, hreplaces⟩
  rw [rescanRegex_known]
  rcases List.mem_cons.1 hx with rfl | hx
  · rcases Token.isSlash_iff.1 slash with hk | hk <;>
      exact nomatch hk.symm.trans hreplaces.1
  · exact List.mem_cons_of_mem _ hx

theorem Act.follows_or_strays (hact : Act root s t) (hs : s.Good root)
    (h : s.Follows root ∨ s.Strays root) :
    t.Follows root ∨ t.Strays root := by
  cases hact with
  | bump => exact h.imp (·.bump hs.stands) Strays.bump
  | rescan slash =>
    have slash := Token.isSlash_iff.2 slash
    exact .inr (h.elim (·.rescanRegex hs slash) (·.rescanRegex slash))
  | @report kind severity message span =>
    have hr := report_reported root kind severity message span s
    rw [hr.eq]
    exact h.imp (·.congr rfl rfl) (fun h => h)
  | record | level => exact h.imp (·.congr rfl rfl) (fun h => h)

/-- **A state that is reached follows the text**, unless it has
strayed. -/
theorem Reached.follows_or_strays (hs : s.Reached root) :
    s.Follows root ∨ s.Strays root :=
  (hs.induction (.inl ((blank_follows root).bump (blank_stands root)))
    (fun _ _ hgood hact h => hact.follows_or_strays hgood h)).2

end State

end ScriptTree
