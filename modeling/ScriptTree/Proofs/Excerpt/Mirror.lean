import ScriptTree.Proofs.Account.Walk
import ScriptTree.Proofs.Excerpt.Scan
import ScriptTree.Proofs.Mirror.Statement

/-!
# A piece of a text mirrored in itself

A piece of a text is a text of its own (`Excerpt`). While a parse of the
whole reads the piece, a parse of the piece follows it, and at the end of
the piece it is over (`Excerpt.mirror`).

A run that ends with the piece reads token after token of it, and reads
some slashes again (`Reaches`). That a run does so is known from its end,
and tells of each token on the way that it lies inside the piece.

The superclass's view of an object is refused where nothing stands behind
it. So it cannot be the last of a piece, although it may be followed by a
line break and a bracket in the whole.
-/

namespace ScriptTree

/-- **A piece of a text.** -/
structure Excerpt where
  /-- What stands in front of it. -/
  front : List Char
  /-- The piece. -/
  part : List Char
  /-- What stands behind it. -/
  tail : List Char

/-- Whether a node is the superclass's view of an object and goes on to the
offset. -/
def Node.isSuperTo (stop : Nat) : Node → Bool
  | .expression (.super span) => stop ≤ span.stop
  | _ => false

/-! ## Tokens up to the end of a piece -/

namespace Scanner

/-- **A scanner behind a token of its text**, which begins behind
`front`. -/
structure Behind (x : Scanner) (t : Token) (front text : List Char) :
    Prop where
  /-- The token is a piece of the text. -/
  spells : t.Spells front text
  /-- The scanner stands behind it. -/
  at_ : x.At (front ++ text)
  /-- Only the end of the text is empty. -/
  text_eq_nil_iff : text = [] ↔ t.isEof = true
  /-- The token is as the scanner makes it. -/
  regular : t.Regular

variable {x : Scanner} {t : Token} {front text : List Char}

/-- **A scanner finds the next token** and stands behind it. -/
theorem At.next {before : List Char} (h : x.At before) :
    ∃ front text, byteLength before ≤ byteLength front
      ∧ x.nextSignificant.scanner.Behind x.peek front text := by
  obtain ⟨front, text, hfinds⟩ := x.nextSignificant_finds h
  exact ⟨front, text, hfinds.le, hfinds.spells, hfinds.at_behind,
    hfinds.text_eq_nil_iff, nextSignificant_regular x⟩

/-- A token that may be read again is a slash, alone or with an equals
sign. -/
theorem Behind.text_of_slash (h : x.Behind t front text)
    (hslash : t.isSlash = true) : text = ['/'] ∨ text = ['/', '='] := by
  have htext : text = t.text.toList := by
    rw [h.spells.text_eq, String.toList_ofList]
  rw [htext]
  refine (Token.isSlash_iff.1 hslash).imp (fun hk => ?_) (fun hk => ?_) <;>
  · rw [h.regular.text_eq _ hk]
    rfl

/-- **A regular expression in the place of a slash** ends no sooner than
that. -/
theorem Behind.rescan (h : x.Behind t front text)
    (hslash : t.isSlash = true) (hclear : (x.rescanRegex t).1.error = none) :
    ∃ text', byteLength text ≤ byteLength text'
      ∧ (x.rescanRegex t).2.Behind (x.rescanRegex t).1 front text' := by
  obtain ⟨cs, rfl⟩ : ∃ cs, text = '/' :: cs := by
    rcases h.text_of_slash hslash with rfl | rfl <;> exact ⟨_, rfl⟩
  have hsource : x.source = front ++ ('/' :: cs ++ x.rest) := by
    rw [h.at_.source_eq, List.append_assoc]
  obtain ⟨text', hne', hspells, hat, -⟩ :=
    rescanRegex_reads hsource h.spells (List.cons_ne_nil _ _)
  have hcut : splitAtByte? x.source t.span.start
      = some (front, '/' :: (cs ++ x.rest)) :=
    splitAtByte?_eq_some_iff.2 ⟨hsource, by rw [h.spells.span_eq]⟩
  have hkind : (x.rescanRegex t).1.kind = .regex := by
    simp [Scanner.rescanRegex]
  refine ⟨text', ?_, hspells, hat, iff_of_false hne' ?_, ?_, ?_⟩
  · -- It has a second slash.
    generalize hlexeme : Lexeme.regex (cs ++ x.rest) = lexeme
    obtain ⟨kind, n, error⟩ := lexeme
    obtain rfl : TokenKind.regex = kind := congrArg Lexeme.kind hlexeme
    rw [rescanRegex_of_split hcut hlexeme] at hclear hspells
    obtain rfl : error = none := hclear
    have hextent : regexExtent false (cs ++ x.rest) 0 = (n, none) :=
      Prod.ext (congrArg Lexeme.extent hlexeme)
        (congrArg Lexeme.error hlexeme)
    have hpos := lt_of_regexExtent hextent
    have hle := regexExtent_le false (cs ++ x.rest) 0
    rw [hextent, Nat.zero_add] at hle
    have htext' : ('/' :: (cs ++ x.rest)).take (n + 1) = text' :=
      String.ofList_injective hspells.text_eq
    have hlength : n + 1 = text'.length := by
      rw [← htext', List.length_take_of_le (Nat.succ_le_succ hle)]
    have hbytes := length_le_byteLength text'
    have htwo : byteLength ('/' :: cs) ≤ 2 := by
      rcases h.text_of_slash hslash with heq | heq <;> rw [heq] <;> decide
    omega
  · rw [Token.isEof, hkind]
    decide
  · intro hmay
    rw [hkind] at hmay
    cases hmay
  · intro p hp
    cases hkind.symm.trans hp

end Scanner

theorem Token.isEof_of_isSlash {t : Token} (h : t.isSlash = true) :
    t.isEof = false := by
  rcases Token.isSlash_iff.1 h with hk | hk <;> rw [isEof, hk] <;> rfl

/-- **A scanner from which the next token is found** with nothing wrong on
the way. -/
structure Scanner.Clear (x : Scanner) : Prop where
  /-- Nothing is wrong with the token. -/
  token : x.peek.error = none
  /-- Nothing is wrong with the comments. -/
  extras : ∀ y ∈ x.nextSignificant.extras, y.kind ≠ .lineBreak →
    y.error = none

/-- **Tokens that are read to the offset `stop`**, from the current one on
with the scanner behind it, and then no more. -/
inductive Reaches (stop : Nat) : Token → Scanner → Prop where
  /-- The current token is the last one, and no dot. -/
  | last {t : Token} {x : Scanner} (isEof : t.isEof = false)
      (dot : t.isPunctuator .dot = false) (stop_eq : t.span.stop = stop) :
      Reaches stop t x
  /-- It is read, and others behind it. -/
  | next {t : Token} {x : Scanner} (isEof : t.isEof = false)
      (clear : x.Clear)
      (rest : Reaches stop x.peek x.nextSignificant.scanner) :
      Reaches stop t x
  /-- It is read again as a regular expression. -/
  | again {t : Token} {x : Scanner} (slash : t.isSlash = true)
      (clear : (x.rescanRegex t).1.error = none)
      (rest : Reaches stop (x.rescanRegex t).1 (x.rescanRegex t).2) :
      Reaches stop t x

namespace Reaches

variable {stop : Nat} {t : Token} {x : Scanner} {front text : List Char}

/-- The current token begins in front of the offset. -/
theorem lt (h : Reaches stop t x) (ht : x.Behind t front text) :
    byteLength front < stop := by
  induction h generalizing front text with
  | last isEof _ stop_eq =>
    have hne : text ≠ [] := fun hnil =>
      Bool.noConfusion (isEof.symm.trans (ht.text_eq_nil_iff.1 hnil))
    have hpos := byteLength_pos hne
    rw [ht.spells.stop_eq] at stop_eq
    omega
  | next _ _ _ ih =>
    obtain ⟨front', text', hle, hbehind⟩ := ht.at_.next
    have hlt := ih hbehind
    rw [byteLength_append] at hle
    omega
  | again slash clear _ ih =>
    obtain ⟨text', _, hbehind⟩ := ht.rescan slash clear
    exact ih hbehind

/-- **The current token lies in front of the offset.** -/
theorem lies (h : Reaches stop t x) (ht : x.Behind t front text)
    (hclear : t.error = none) : t.LiesBefore stop := by
  induction h generalizing front text with
  | last isEof dot stop_eq =>
    exact ⟨isEof, hclear, Nat.le_of_eq stop_eq,
      fun h => Bool.noConfusion (dot.symm.trans h)⟩
  | next isEof _ rest =>
    obtain ⟨front', text', hle, hbehind⟩ := ht.at_.next
    have hlt := rest.lt hbehind
    have hstop := ht.spells.stop_eq
    rw [byteLength_append] at hle
    exact ⟨isEof, hclear, by omega, fun _ => by omega⟩
  | again slash clear _ ih =>
    obtain ⟨text', hle, hbehind⟩ := ht.rescan slash clear
    have hlies := (ih hbehind clear).le
    rw [hbehind.spells.stop_eq] at hlies
    have hstop := ht.spells.stop_eq
    refine ⟨Token.isEof_of_isSlash slash, hclear, by omega, fun hdot => ?_⟩
    have hkind : _ = TokenKind.punctuator .dot := of_decide_eq_true hdot
    rw [Token.isSlash, Token.isPunctuator, Token.isPunctuator, hkind] at slash
    cases slash

theorem isEof (h : Reaches stop t x) : t.isEof = false := by
  cases h with
  | last isEof | next isEof => exact isEof
  | again slash => exact Token.isEof_of_isSlash slash

/-- **A token that is no slash** is the last, or the next one is read. -/
theorem last_or_next (h : Reaches stop t x) (hslash : t.isSlash = false) :
    t.span.stop = stop
      ∨ x.Clear ∧ Reaches stop x.peek x.nextSignificant.scanner := by
  cases h with
  | last _ _ stop_eq => exact .inl stop_eq
  | next _ clear rest => exact .inr ⟨clear, rest⟩
  | again slash => exact Bool.noConfusion (hslash.symm.trans slash)

end Reaches

/-- **A token that cannot be read again** is read to its end. -/
theorem State.Leads.stop_le_consumedTo {root : Context} {s t : State}
    (h : s.Leads root t) (hslash : s.current.isSlash = false)
    (hpast : s.here < t.consumedTo) : s.current.span.stop ≤ t.consumedTo := by
  have hends : t.current = s.current ∧ t.consumedTo = s.consumedTo
      ∨ s.current.span.stop ≤ t.consumedTo := by
    obtain ⟨hs, hsteps⟩ := h
    clear hpast
    induction hsteps with
    | refl => exact .inl ⟨rfl, rfl⟩
    | @tail t u hst hstep ih =>
      have hle := (Leads.step (Leads.mk hs hst).good hstep).consumedTo_le
      rcases ih with ⟨hcurrent, hcons⟩ | hstop
      · cases hstep with
        | bump =>
          rw [bump_consumedTo, hcurrent]
          exact .inr (Nat.le_refl _)
        | rescan slash =>
          rw [hcurrent] at slash
          exact Bool.noConfusion
            (hslash.symm.trans (Token.isSlash_iff.2 slash))
        | report kind severity message span =>
          rw [(report_reported root kind severity message span t).eq]
          exact .inl ⟨hcurrent, hcons⟩
        | record => exact .inl ⟨hcurrent, hcons⟩
      · exact .inr (Nat.le_trans hstop hle)
  have hle := h.good_start.consumedTo_le
  rcases hends with ⟨_, heq⟩ | hle
  · omega
  · exact hle

/-- Nothing has gone wrong where nothing has been taken down. -/
theorem State.Good.clean {root : Context} {s : State} (hs : s.Good root)
    (hoptions : root.options = .standard) (h : s.problems = []) :
    s.Clean root where
  going := hs.aborted_eq (by rw [hoptions]; rfl)
  room := by
    rw [h, hoptions]
    exact Nat.zero_lt_succ _
  quiet d hd := by
    rw [h] at hd
    exact absurd hd List.not_mem_nil

namespace Excerpt

variable (X : Excerpt)

/-- The whole text. -/
def text : List Char := X.front ++ (X.part ++ X.tail)

/-- Where the piece begins. -/
def start : Nat := byteLength X.front

/-- Where it ends. -/
def stop : Nat := X.start + byteLength X.part

/-- **The piece as it is found in the text of its own.** -/
def mirror : Mirror where
  text := X.text
  other := X.part
  options := .standard
  table := .standard
  place offset := offset - X.start
  Fits s := s.problems = []
    ∧ (s.consumedTo = X.stop
        ∧ (∀ t ∈ s.taken.head?, t.isPunctuator .dot = false)
      ∨ Reaches X.stop s.current s.scanner)
  Done s := X.stop ≤ s.consumedTo
  Level _ := Scanner.Excerpts X.front X.tail X.stop
  Twin x x' := x'.source = X.part ∧ x.Excerpts X.front X.tail X.stop x'
    ∧ (x'.rest = []
      ∨ x.Clear ∧ Reaches X.stop x.peek x.nextSignificant.scanner)
  Mark n := n.isSuperTo X.stop = true

variable {X} {s s' t t' : State} {x x' : Scanner}

/-! ## Tokens of the piece -/

/-- A token of the piece is the one of the text, in its own place. -/
theorem token_eq {token token' : Token} {front text : List Char}
    (h : token.Copies X.front token') (hbehind : x'.Behind token' front text)
    (hsource : x'.source = X.part) : token' = X.mirror.token token := by
  obtain ⟨before, piece, hspells, hspells'⟩ := h.spells
  have hstart : token.span.start - X.start = byteLength before := by
    rw [hspells.span_eq]
    simp [start]
  have hspan : token'.span = token.span.move (· - X.start) := by
    rw [hspells.span_eq, hspells'.span_eq]
    simp [Span.move, start, Nat.add_assoc]
  have hposition : token'.position
      = positionAt X.part (token.span.start - X.start) := by
    have hfront : byteLength before = byteLength front := by
      have heq := hspells'.span_eq.symm.trans hbehind.spells.span_eq
      exact congrArg Span.start heq
    have hpart : X.part = front ++ (text ++ x'.rest) := by
      rw [← hsource, hbehind.at_.source_eq, List.append_assoc]
    rw [hstart, hfront, hbehind.spells.position_eq, hpart, positionAt_append]
  calc token' = ⟨token'.kind, token'.text, token'.span, token'.position,
        token'.error⟩ := rfl
    _ = X.mirror.token token := by
      rw [h.kind_eq, h.error_eq, hspan, hposition, hspells'.text_eq,
        ← hspells.text_eq]
      rfl

theorem behind_of_good {root : Context} (hs : s.Good root) :
    ∃ front text, s.scanner.Behind s.current front text
      ∧ s.here = byteLength front := by
  obtain ⟨front, text, h⟩ := hs.faces
  exact ⟨front, text, ⟨h.spells, h.at_behind, h.text_eq_nil_iff, h.regular⟩,
    h.here_eq⟩

/-- Where the piece has been read, nothing is left of it. -/
theorem rest_eq_nil (h : X.mirror.Fresh s s')
    (hstop : s.current.span.stop = X.stop) : s'.scanner.rest = [] := by
  obtain ⟨front, text, hbehind, _⟩ := behind_of_good h.good
  have hlevel : s.scanner.Excerpts X.front X.tail X.stop s'.scanner := h.level
  have hend := hlevel.stop_eq
  rw [hbehind.at_.position_eq, Position.after_offset, byteLength_append,
    ← hbehind.spells.stop_eq, hstop] at hend
  exact byteLength_eq_zero_iff.1 (by omega)

/-! ## Runs that end with the piece -/

/-- **Before a step** a run that ends with the piece has begun in it. -/
theorem fits_of_step (hs : s.Good X.mirror.root)
    (hstep : State.Step X.mirror.root s t) (ht : X.mirror.Fits t) :
    X.mirror.Fits s := by
  have hnone : s.problems = [] := by
    have hprefix := (State.Steps.problems_prefix (.single hstep))
    rw [ht.1] at hprefix
    exact List.prefix_nil.1 hprefix
  have hgood := (hstep.still_or_past hs).1
  have hclean := hgood.clean rfl ht.1
  refine ⟨hnone, ?_⟩
  cases hstep with
  | bump isEof =>
    rcases ht.2 with ⟨hstop, hdot⟩ | hreaches
    · rw [State.bump_consumedTo] at hstop
      exact .inr (.last isEof (hdot _ (State.head?_bump ..)) hstop)
    · have hclear := (State.bump_clean hclean).2
      rw [State.bump_current] at hclear
      rw [State.bump_current, State.bump_scanner] at hreaches
      exact .inr (.next isEof ⟨hclear, State.bump_extras_clear hclean⟩
        hreaches)
  | rescan slash =>
    have hclear := (State.rescanRegex_clean hclean).2
    obtain ⟨u, hu, heq⟩ := State.rescanRegex_eq X.mirror.root s
    rw [heq] at hclear
    have hfits := ht.2
    rw [heq, hu.eq] at hfits
    exact hfits.imp_right (.again (Token.isSlash_iff.2 slash) hclear)
  | report kind severity message span =>
    have hfits := ht.2
    rw [(State.report_reported X.mirror.root kind severity message span s).eq]
      at hfits
    exact hfits
  | record event => exact ht.2

theorem fits_of_leads (h : s.Leads X.mirror.root t) (ht : X.mirror.Fits t) :
    X.mirror.Fits s := by
  obtain ⟨hs, hsteps⟩ := h
  induction hsteps using Relation.ReflTransGen.head_induction_on with
  | refl => exact ht
  | head hstep _ ih =>
    exact fits_of_step hs hstep (ih (hstep.still_or_past hs).1)

/-- What is current in a run that ends with the piece begins in it, unless
the run has come to its end. -/
theorem here_lt_of_reaches (hs : s.Good X.mirror.root)
    (h : Reaches X.stop s.current s.scanner) : s.here < X.stop := by
  obtain ⟨front, text, hbehind, hhere⟩ := behind_of_good hs
  rw [hhere]
  exact h.lt hbehind

/-- Nothing behind the piece belongs to it. -/
theorem not_fits_of_past (h : s.Leads X.mirror.root t)
    (hs : X.mirror.Done s) (hpast : s.consumedTo < t.consumedTo) :
    ¬X.mirror.Fits t := by
  intro ht
  have hdone : X.stop ≤ s.consumedTo := hs
  rcases ht.2 with ⟨hstop, _⟩ | hreaches
  · omega
  · have hlt := here_lt_of_reaches h.good hreaches
    have hle := h.good.consumedTo_le
    omega

/-! ## Side by side -/

/-- At the end of the piece the other parse is at the end of its text. -/
theorem isEof_of_end (h : X.mirror.Fresh s s')
    (hstop : s.consumedTo = X.stop) : s'.current.isEof = true := by
  have hend : s'.consumedTo = byteLength X.part := by
    rw [h.consumedTo_eq]
    show s.consumedTo - X.start = _
    rw [hstop]
    exact Nat.add_sub_cancel_left _ _
  refine Bool.eq_true_of_not_eq_false (fun heof => ?_)
  have hfits := (h.good'.current_occupies heof).2.1
  have hlt := hfits.start_lt_stop
  have hle := h.good'.consumedTo_le
  have hstop' : s'.current.span.stop ≤ byteLength X.part := hfits.stop_le
  have hhere : s'.here = s'.current.span.start := rfl
  omega

/-- **The next token is read in both texts.** -/
theorem inside_bump (h : X.mirror.Fresh s s')
    (heof : s.current.isEof = false) (hclean : s.scanner.Clear)
    (hreaches : Reaches X.stop s.scanner.peek
      s.scanner.nextSignificant.scanner) :
    X.mirror.Inside (s.bump X.mirror.root) (s'.bump X.mirror.image) := by
  have hlevel : s.scanner.Excerpts X.front X.tail X.stop s'.scanner := h.level
  have hgood := ((State.Step.bump heof).still_or_past h.good).1
  have heof' : s'.current.isEof = false := by
    rw [h.current_eq]
    exact heof
  have hgood' := ((State.Step.bump heof').still_or_past h.good').1
  obtain ⟨front, text, hbehind, _⟩ := behind_of_good h.good
  obtain ⟨front₁, text₁, _, hbehind₁⟩ := hbehind.at_.next
  have hnext := hlevel.nextSignificant hclean.extras
    (hreaches.lies hbehind₁ hclean.token)
  obtain ⟨front', text', hbehind', _⟩ := behind_of_good hgood'
  have hclear' : s'.scanner.nextSignificant.token.error = none :=
    hnext.token.error_eq.trans hclean.token
  refine ⟨⟨hgood, hgood', ?_, ?_, ?_, ?_, ?_⟩, ?_⟩
  · refine token_eq ?_ hbehind' hgood'.source_eq
    rw [State.bump_current, State.bump_current]
    exact hnext.token
  · rw [State.bump_current]
    exact hclean.token
  · show Scanner.Excerpts _ _ _ _ _
    rw [State.bump_scanner, State.bump_scanner]
    exact hnext.scanner
  · rw [State.bump_consumedTo, State.bump_consumedTo, h.current_eq]
    rfl
  · rw [State.bump_problems_eq hnext.clear hclear', h.problems_eq]
  · rw [State.bump_newlineBefore, State.bump_newlineBefore]
    exact hnext.any_eq

/-- **The last token is read**, and the other text ends. -/
theorem over_bump (h : X.mirror.Fresh s s') (heof : s.current.isEof = false)
    (hclean : (s.bump X.mirror.root).Clean X.mirror.root)
    (hstop : s.current.span.stop = X.stop) :
    X.mirror.Over (s.bump X.mirror.root) (s'.bump X.mirror.image) := by
  have heof' : s'.current.isEof = false := by
    rw [h.current_eq]
    exact heof
  have hnext := Scanner.next_of_rest (rest_eq_nil h hstop)
  have hadvance : s'.scanner.nextSignificant
      = ⟨[], (s'.scanner.take .eof 0 none).1,
        (s'.scanner.take .eof 0 none).2⟩ := by
    unfold Scanner.nextSignificant
    rw [Scanner.nextSignificantFrom_of_not_extra (by rw [hnext]; rfl), hnext]
    rfl
  refine ⟨((State.Step.bump heof).still_or_past h.good).1,
    ((State.Step.bump heof').still_or_past h.good').1, ?_,
    (State.bump_clean hclean).2, ?_, ?_, ?_, ?_⟩
  · show X.stop ≤ _
    rw [State.bump_consumedTo, hstop]
  · rw [State.bump_current, Scanner.peek, hadvance]
    rfl
  · rw [State.bump_newlineBefore, hadvance]
    rfl
  · rw [State.bump_consumedTo, State.bump_consumedTo, h.current_eq]
    rfl
  · intro d hd
    rw [State.bump_problems_eq (by rw [hadvance]; exact List.forall_mem_nil _)
      (by rw [hadvance]; rfl), h.problems_eq] at hd
    exact absurd hd List.not_mem_nil

/-- The current token in both texts. -/
theorem exists_behind (h : X.mirror.Fresh s s') :
    ∃ before text, s.scanner.Behind s.current (X.front ++ before) text
      ∧ s'.scanner.Behind s'.current before text := by
  obtain ⟨front, text, hbehind, _⟩ := behind_of_good h.good
  obtain ⟨front', text', hbehind', _⟩ := behind_of_good h.good'
  have hlevel : s.scanner.Excerpts X.front X.tail X.stop s'.scanner := h.level
  obtain ⟨before, hat, hat'⟩ := hlevel.at_
  have htext : text' = text := by
    have heq : s'.current.text = s.current.text := by
      rw [h.current_eq]
      rfl
    rw [hbehind.spells.text_eq, hbehind'.spells.text_eq] at heq
    exact String.ofList_injective heq
  subst htext
  have hbefore : before = front' ++ text' := List.append_cancel_right
    (hat'.source_eq.symm.trans hbehind'.at_.source_eq)
  have hfront : X.front ++ before = front ++ text' := List.append_cancel_right
    (hat.source_eq.symm.trans hbehind.at_.source_eq)
  rw [hbefore, ← List.append_assoc] at hfront
  obtain rfl := List.append_cancel_right hfront
  exact ⟨front', text', hbehind, hbehind'⟩

/-- **A slash is read again in both texts.** -/
theorem fresh_rescan (h : X.mirror.Fresh s s')
    (hslash : s.current.isSlash = true)
    (hfits : X.mirror.Fits (s.rescanRegex X.mirror.root)) :
    X.mirror.Fresh (s.rescanRegex X.mirror.root)
      (s'.rescanRegex X.mirror.image) := by
  have hlevel : s.scanner.Excerpts X.front X.tail X.stop s'.scanner := h.level
  have hslash' : s'.current.isSlash = true := by
    rw [h.current_eq]
    exact hslash
  have hgood := (State.rescanRegex_good h.good (Token.isSlash_iff.1 hslash)).1
  have hgood' :=
    (State.rescanRegex_good h.good' (Token.isSlash_iff.1 hslash')).1
  have hclear := (State.rescanRegex_clean (hgood.clean rfl hfits.1)).2
  obtain ⟨before, text, hbehind, hbehind'⟩ := exists_behind h
  obtain ⟨u, hu, heq⟩ := State.rescanRegex_eq X.mirror.root s
  obtain ⟨u', hu', heq'⟩ := State.rescanRegex_eq X.mirror.image s'
  have hreaches : Reaches X.stop (s.scanner.rescanRegex s.current).1
      (s.scanner.rescanRegex s.current).2 := by
    have hends := hfits.2
    rw [heq, hu.eq] at hends
    refine hends.resolve_left (fun hend => ?_)
    exact Bool.noConfusion ((Token.isEof_of_isSlash hslash').symm.trans
      (isEof_of_end h hend.1))
  rw [heq] at hclear
  obtain ⟨text₁, _, hbehind₁⟩ := hbehind.rescan hslash hclear
  have hne : text ≠ [] := by
    rcases hbehind.text_of_slash hslash with rfl | rfl <;>
      exact List.cons_ne_nil _ _
  obtain ⟨hcopies, hexcerpts⟩ := hlevel.rescanRegex hne hbehind'.at_
    hbehind.spells hbehind'.spells hclear (hreaches.lies hbehind₁ hclear).le
  obtain ⟨front', text', hfaces', _⟩ := behind_of_good hgood'
  refine ⟨hgood, hgood', ?_, ?_, ?_, ?_, ?_⟩
  · refine token_eq ?_ hfaces' hgood'.source_eq
    rw [heq, heq']
    exact hcopies
  · rw [heq]
    exact hclear
  · show Scanner.Excerpts _ _ _ _ _
    rw [heq, heq']
    exact hexcerpts
  · rw [heq, heq', hu.eq, hu'.eq]
    exact h.consumedTo_eq
  · rw [State.rescanRegex_problems_eq (hcopies.error_eq.trans hclear),
      h.problems_eq]

/-- Scanners find the same tokens to the end of the piece. -/
theorem twin_of_fresh (h : X.mirror.Fresh s s') (hfits : X.mirror.Fits s)
    (hslash : s.current.isSlash = false) :
    X.mirror.Twin s.scanner s'.scanner := by
  refine ⟨h.good'.source_eq, h.level, ?_⟩
  rcases hfits.2 with ⟨hstop, _⟩ | hreaches
  · obtain ⟨front, text, hfaces⟩ := h.good'.faces
    exact .inl (hfaces.rest_of_eof (isEof_of_end h hstop))
  · exact (hreaches.last_or_next hslash).imp_left (rest_eq_nil h)

/-- **A token of the piece comes next** in both texts. -/
theorem peek_eq (hsource : x'.source = X.part)
    (h : x.Excerpts X.front X.tail X.stop x') (hclear : x.Clear)
    (hreaches : Reaches X.stop x.peek x.nextSignificant.scanner) :
    x'.peek = X.mirror.token x.peek
      ∧ x.nextSignificant.scanner.Excerpts X.front X.tail X.stop
        x'.nextSignificant.scanner
      ∧ x'.nextSignificant.scanner.source = X.part
      ∧ (x.peek.span.stop = X.stop →
        x'.nextSignificant.scanner.rest = []) := by
  obtain ⟨before, hat, hat'⟩ := h.at_
  obtain ⟨front, text, _, hbehind⟩ := hat.next
  obtain ⟨front', text', _, hbehind'⟩ := hat'.next
  have hnext := h.nextSignificant hclear.extras
    (hreaches.lies hbehind hclear.token)
  have hsource' : x'.nextSignificant.scanner.source = X.part := by
    obtain ⟨_, _, hfinds⟩ := x'.nextSignificant_finds hat'
    exact hfinds.source_eq.trans hsource
  refine ⟨token_eq hnext.token hbehind' hsource', hnext.scanner, hsource',
    fun hstop => ?_⟩
  have hend := hnext.scanner.stop_eq
  rw [hbehind.at_.position_eq, Position.after_offset, byteLength_append,
    ← hbehind.spells.stop_eq, hstop] at hend
  exact byteLength_eq_zero_iff.1 (by omega)

/-- **What comes next** is the same to the end of the piece. -/
theorem next_of_twin (h : X.mirror.Twin x x') :
    x'.peek = X.mirror.token x.peek
        ∧ (x.peek.isSlash = false → x.peek.isEof = false →
          X.mirror.Twin x.nextSignificant.scanner x'.nextSignificant.scanner)
      ∨ x'.peek.isEof = true := by
  obtain ⟨hsource, hexcerpts, hrest | ⟨hclear, hreaches⟩⟩ := h
  · exact .inr (Scanner.isEof_nextSignificant hrest)
  · obtain ⟨hpeek, hnext, hsource', hend⟩ :=
      peek_eq hsource hexcerpts hclear hreaches
    refine .inl ⟨hpeek, fun hslash _ => ⟨hsource', hnext, ?_⟩⟩
    exact (hreaches.last_or_next hslash).imp_left hend

/-- A token that is read behind the current one is seen from there. -/
theorem seen_of_beyond (h : X.mirror.Fresh s s')
    (hslash : s.current.isSlash = false) (hbeyond : X.mirror.Beyond s) :
    s'.scanner.peek = X.mirror.token s.scanner.peek := by
  obtain ⟨t, hst, hpast, u, htu, hu, hlater⟩ := hbeyond
  have hfits := fits_of_leads (hst.trans htu) hu
  have hnext : s.scanner.Clear
      ∧ Reaches X.stop s.scanner.peek s.scanner.nextSignificant.scanner := by
    rcases hfits.2 with ⟨hstop, _⟩ | hreaches
    · have hle := h.good.consumedTo_le
      have hle' := htu.here_le
      refine absurd hu (not_fits_of_past (hst.trans htu) (Nat.le_of_eq
        hstop.symm) ?_)
      have hcons := hst.good.consumedTo_le
      omega
    · refine (hreaches.last_or_next hslash).resolve_left (fun hstop => ?_)
      have hread := hst.stop_le_consumedTo hslash hpast
      rw [hstop] at hread
      have hcons := hst.good.consumedTo_le
      exact not_fits_of_past htu hread (by omega) hu
  exact (peek_eq h.good'.source_eq h.level hnext.1 hnext.2).1

instance : X.mirror.Lawful where
  tolerant := rfl
  room := Nat.zero_lt_succ _
  place_mono h := Nat.sub_le_sub_right h _
  fits_of_leads := fits_of_leads
  fits_of_atDepth h := h
  problems_of_fits h := h.1
  done_atDepth _ h := h
  not_fits_of_past := not_fits_of_past
  bump {s s'} h heof hfits := by
    have hclean :=
      ((State.Step.bump heof).still_or_past h.good).1.clean rfl hfits.1
    rcases hfits.2 with ⟨hstop, _⟩ | hreaches
    · rw [State.bump_consumedTo] at hstop
      exact .inr (over_bump h heof hclean hstop)
    · have hclear := (State.bump_clean hclean).2
      rw [State.bump_current] at hclear
      rw [State.bump_current, State.bump_scanner] at hreaches
      exact .inl (inside_bump h heof
        ⟨hclear, State.bump_extras_clear hclean⟩ hreaches)
  rescan h hslash hfits := .inl (fresh_rescan h hslash hfits)
  super _ h := decide_eq_true h
  twin := twin_of_fresh
  next := next_of_twin
  seen := seen_of_beyond

end Excerpt

end ScriptTree
