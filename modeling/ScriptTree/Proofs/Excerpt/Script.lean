import ScriptTree.Proofs.Excerpt.Front

/-!
# Statements on their own

A statement of a script in which nothing is wrong is a script of its own:
the text from its begin to its end is parsed without an error, and into
that statement alone (`parse_excerpt`). Only `super` with nothing behind it
at the end of a statement is an exception: it asks for the token behind the
statement, be it on another line.
-/

namespace ScriptTree

/-! ## A text mirrored in itself -/

/-- **All of a text, as it is found in the same text.** -/
def Mirror.alone (text : List Char) : Mirror where
  text := text
  other := text
  options := .standard
  table := .standard
  place := id
  Fits s := s.problems = []
  Done _ := False
  Level _ x x' := x' = x
  Twin x x' := x' = x ∧ x.source = text ∧ ∃ before, x.At before
  Mark _ := False

/-- Comments and line breaks are as the scanner makes tokens. -/
theorem Scanner.nextSignificantFrom_extras_regular (x : Scanner)
    (found : List Token) (hfound : ∀ y ∈ found, y.Regular) :
    ∀ y ∈ (x.nextSignificantFrom found).extras, y.Regular := by
  fun_induction nextSignificantFrom x found with
  | case1 x found step hextra ih =>
    exact ih (List.forall_mem_cons.2 ⟨read_regular _, hfound⟩)
  | case2 x found step hextra =>
    exact fun y hy => hfound y (List.mem_reverse.1 hy)

namespace Mirror

variable {text : List Char} {s s' : State} {x : Scanner}

/-- A token of the text is found where it is. -/
theorem alone_token {t : Token} {front piece : List Char}
    (h : x.Behind t front piece) (hsource : x.source = text) :
    (alone text).token t = t := by
  have hposition : positionAt text t.span.start = t.position := by
    have hstart : t.span.start = byteLength front := by rw [h.spells.span_eq]
    rw [hstart, ← hsource, h.at_.source_eq, List.append_assoc,
      positionAt_append, h.spells.position_eq]
  exact congrArg (fun p : Position => { t with position := p }) hposition

theorem alone_current (hs : s.Good (alone text).root) :
    (alone text).token s.current = s.current := by
  obtain ⟨front, piece, hbehind, _⟩ := Excerpt.behind_of_good hs
  exact alone_token hbehind hs.source_eq

/-- What comes next is the same. -/
theorem alone_next (hsource : x.source = text) (hat : ∃ before, x.At before) :
    (alone text).token x.peek = x.peek
      ∧ (alone text).Twin x.nextSignificant.scanner
        x.nextSignificant.scanner := by
  obtain ⟨before, hat⟩ := hat
  obtain ⟨_, _, hfinds⟩ := x.nextSignificant_finds hat
  obtain ⟨front, piece, _, hbehind⟩ := hat.next
  have hsource := hfinds.source_eq.trans hsource
  exact ⟨alone_token hbehind hsource, rfl, hsource, _, hbehind.at_⟩

theorem alone_twin (h : (alone text).Fresh s s') :
    (alone text).Twin s.scanner s'.scanner := by
  obtain ⟨front, piece, hbehind, _⟩ := Excerpt.behind_of_good h.good
  exact ⟨h.level, h.good.source_eq, _, hbehind.at_⟩

theorem alone_bump (h : (alone text).Fresh s s')
    (heof : s.current.isEof = false)
    (hfits : (s.bump (alone text).root).problems = []) :
    (alone text).Inside (s.bump (alone text).root)
      (s'.bump (alone text).image) := by
  have hlevel : s'.scanner = s.scanner := h.level
  have heof' : s'.current.isEof = false := by
    rw [h.current_eq]
    exact heof
  have hgood := ((State.Step.bump heof).still_or_past h.good).1
  have hclean := hgood.clean rfl hfits
  have hclear := (State.bump_clean hclean).2
  refine ⟨⟨hgood, ((State.Step.bump heof').still_or_past h.good').1, ?_,
    hclear, ?_, ?_, ?_⟩, ?_⟩
  · rw [alone_current hgood, State.bump_current, State.bump_current, hlevel]
  · show _ = _
    rw [State.bump_scanner, State.bump_scanner, hlevel]
  · rw [State.bump_consumedTo, State.bump_consumedTo, h.current_eq]
    rfl
  · rw [State.bump_problems_eq ?_ ?_, h.problems_eq]
    · rw [hlevel]
      intro y hy
      by_cases hkind : y.kind = .lineBreak
      · exact (Scanner.nextSignificantFrom_extras_regular _ []
          (List.forall_mem_nil _) y hy).error_eq (by rw [hkind]; rfl)
      · exact State.bump_extras_clear hclean y hy hkind
    · rw [hlevel]
      exact hclear
  · rw [State.bump_newlineBefore, State.bump_newlineBefore, hlevel]

theorem alone_rescan (h : (alone text).Fresh s s')
    (hslash : s.current.isSlash = true)
    (hfits : (s.rescanRegex (alone text).root).problems = []) :
    (alone text).Fresh (s.rescanRegex (alone text).root)
      (s'.rescanRegex (alone text).image) := by
  have hlevel : s'.scanner = s.scanner := h.level
  have hcurrent : s'.current = s.current :=
    h.current_eq.trans (alone_current h.good)
  have hgood :=
    (State.rescanRegex_good h.good (Token.isSlash_iff.1 hslash)).1
  have hgood' := (State.rescanRegex_good h.good'
    (Token.isSlash_iff.1 (hcurrent ▸ hslash))).1
  have hclear := (State.rescanRegex_clean (hgood.clean rfl hfits)).2
  obtain ⟨u, hu, heq⟩ := State.rescanRegex_eq (alone text).root s
  obtain ⟨u', hu', heq'⟩ := State.rescanRegex_eq (alone text).image s'
  refine ⟨hgood, hgood', ?_, hclear, ?_, ?_, ?_⟩
  · rw [alone_current hgood, heq, heq', hlevel, hcurrent]
  · show _ = _
    rw [heq, heq', hlevel, hcurrent]
  · rw [heq, heq', hu.eq, hu'.eq]
    exact h.consumedTo_eq
  · rw [State.rescanRegex_problems_eq, h.problems_eq]
    rw [hlevel, hcurrent, ← hclear, heq]

instance : (alone text).Lawful where
  tolerant := rfl
  room := Nat.zero_lt_succ _
  place_mono h := h
  fits_of_leads h ht := List.prefix_nil.1 (ht ▸ h.steps.problems_prefix)
  fits_of_atDepth h := h
  problems_of_fits h := h
  done_atDepth _ h := h
  not_fits_of_past _ h _ := h.elim
  bump h heof hfits := .inl (alone_bump h heof hfits)
  rescan h hslash hfits := .inl (alone_rescan h hslash hfits)
  super _ h := h.elim
  twin h _ _ := alone_twin h
  next := by
    rintro x _ ⟨rfl, hsource, hat⟩
    obtain ⟨hpeek, htwin⟩ := alone_next hsource hat
    exact .inl ⟨hpeek.symm, fun _ _ => htwin⟩
  seen h _ _ := by
    obtain ⟨hlevel, hsource, hat⟩ := alone_twin h
    rw [hlevel]
    exact (alone_next hsource hat).1.symm

/-- **A state beside itself**, where nothing is wrong. -/
theorem alone_inside (hs : s.Good (alone text).root)
    (hclear : s.current.error = none) (h : s.problems = []) :
    (alone text).Inside s s where
  good := hs
  good' := hs
  current_eq := (alone_current hs).symm
  clear := hclear
  level := rfl
  consumedTo_eq := rfl
  problems_eq := h
  newlineBefore_eq := rfl

theorem alone_initial
    (h : (State.initial (alone text).root).problems = []) :
    (alone text).Along (State.initial (alone text).root)
      (State.initial (alone text).root) where
  at_ := by
    have hgood := State.initial_good (alone text).root
    exact .inl (alone_inside hgood
      (State.bump_clean (hgood.clean rfl h)).2 h)
  dot t ht := by
    rw [State.initial, State.head?_bump] at ht
    obtain rfl := Option.some.inj ht
    rfl

end Mirror

/-! ## The statements of a list -/

namespace Parse

variable {text : List Char} {n : Nat} {found body : List Statement}
  {S : Statement} {s t u v : State}

/-- **A statement of a script** and the states around it. -/
structure ReadBetween (text : List Char) (n : Nat) (S : Statement)
    (u v : State) : Prop where
  /-- The parse has come to the statement. -/
  leads : (State.initial (Mirror.alone text).root).Leads
    (Mirror.alone text).root u
  /-- Nothing is wrong with the token in front of it. -/
  along : (Mirror.alone text).Along u u
  /-- The statement is read. -/
  run : statement (Grammar.levels n) ((Mirror.alone text).root.inList .eof) u
    = (.ok S, v)
  /-- Nothing is wrong with the token behind it. -/
  along' : (Mirror.alone text).Along v v
  /-- Nothing has been taken down. -/
  problems_eq : v.problems = []

/-- **A turn of the list** leaves it, or it reads a statement, if nothing is
taken down. -/
theorem statementsTurn_cases
    {r : Turn (List Statement) (List Statement)}
    (hs : (Mirror.alone text).Along s s)
    (hturn : statementsTurn (Grammar.levels n) found
      ((Mirror.alone text).root.inList .eof) s = (r, t))
    (ht : t.problems = []) :
    r = .done found.reverse
      ∨ ∃ x, r = .again (x :: found) ∧ statement (Grammar.levels n)
          ((Mirror.alone text).root.inList .eof) s = (.ok x, t)
        ∧ (Mirror.alone text).Along t t := by
  have hctx := (Context.Within.refl (Mirror.alone text).root).inList .eof
  have hgood : s.Good (Mirror.alone text).root := hs.start.elim (·.good)
    (·.good)
  cases hend : s.atListEnd ((Mirror.alone text).root.inList .eof) with
  | true =>
    rw [statementsTurn_of_end found (by rw [hend, Bool.or_true])] at hturn
    exact .inl (congrArg Prod.fst hturn).symm
  | false =>
    refine .inr ?_
    rw [statementsTurn_run hs.start.aborted_eq hend] at hturn
    have hmirrored := Grammar.levels_mirrored (M := Mirror.alone text) n
    match hread : statement (Grammar.levels n)
        ((Mirror.alone text).root.inList .eof) s with
    | (.ok x, v) =>
      have hattempt : Action.attempt (statement (Grammar.levels n))
          ((Mirror.alone text).root.inList .eof) s = (.ok x, v) := hread
      rw [Action.bind_run hattempt] at hturn
      obtain ⟨rfl, rfl⟩ := Prod.mk.inj hturn
      obtain ⟨t', hread', halong⟩ := (statement_alike hmirrored
        (H := True) (fun _ => hs.start)).same trivial hctx hgood hread ht
        (fun ⟨_, _, _, _, h⟩ => h)
      have hsame : t' = v := congrArg Prod.snd (hread'.symm.trans hread)
      exact ⟨x, rfl, rfl, hsame ▸ halong⟩
    | (.error e, v) =>
      have hnot := afterStatement_not_fits found s.here hctx
        (leaves_of_error (Plan.statement.abreast hmirrored.abreast) hctx
          hs.start hread)
      have hattempt : Action.attempt (statement (Grammar.levels n))
          ((Mirror.alone text).root.inList .eof) s = (.error e, v) := hread
      rw [Action.bind_run hattempt] at hturn
      rw [hturn] at hnot
      exact absurd ht hnot

/-- **Every statement of a list** in which nothing is wrong has been read
somewhere. -/
theorem exists_readBetween
    (hlist : (statementsLoop (Grammar.levels n)).Comes
      ((Mirror.alone text).root.inList .eof) found s (.ok body, t))
    (hs : (State.initial (Mirror.alone text).root).Leads
      (Mirror.alone text).root s)
    (halong : (Mirror.alone text).Along s s) (ht : t.problems = []) :
    ∀ S ∈ body, S ∈ found ∨ ∃ u v, ReadBetween text n S u v := by
  have hctx := (Context.Within.refl (Mirror.alone text).root).inList .eof
  have hturns (x : List Statement) (s s' : State) :=
    @statementsTurn_mirrors _ ((Mirror.alone text).root.inList .eof) _
      (Grammar.levels_mirrored (M := Mirror.alone text) n) _ x s s'
  generalize hr : (Except.ok body, t) = r at hlist
  induction hlist with
  | @again x y s u r hturn rest ih =>
    subst hr
    have hsu := (hturns x s s).runs.of_run hctx hs.good hturn
    have hut := rest.leads hturns hctx hsu.1.good
    have hu : u.problems = [] := Mirror.Lawful.fits_of_leads hut ht
    have hturn : statementsTurn (Grammar.levels n) x
        ((Mirror.alone text).root.inList .eof) s = (.again y, u) :=
      Prod.ext (Except.ok.inj (congrArg Prod.fst hturn))
        (congrArg Prod.snd hturn :)
    rcases statementsTurn_cases halong hturn hu with hdone
      | ⟨S, hagain, hrun, halong'⟩
    · cases hdone
    · obtain rfl := Turn.again.inj hagain
      intro S' hS'
      rcases ih (hs.trans hsu.1) halong' rfl S' hS' with hmem | hmem
      · rcases List.mem_cons.1 hmem with rfl | hmem
        · exact .inr ⟨s, u, hs, halong, hrun, halong', hu⟩
        · exact .inl hmem
      · exact .inr hmem
  | @done x a s u hturn =>
    cases hr
    have hturn : statementsTurn (Grammar.levels n) x
        ((Mirror.alone text).root.inList .eof) s = (.done body, t) :=
      Prod.ext (Except.ok.inj (congrArg Prod.fst hturn))
        (congrArg Prod.snd hturn :)
    rcases statementsTurn_cases halong hturn ht with hdone | ⟨_, hagain, _⟩
    · obtain rfl := Turn.done.inj hdone
      exact fun S hS => .inl (List.mem_reverse.1 hS)
    · cases hagain
  | failure => cases hr

end Parse

/-- **A script is its statements**; that it has none is taken down behind
them. -/
theorem runScript_eq (source : List Char) (options : Options)
    (table : OperatorTable) :
    let ctx := .ofSource source options table
    runScript source options table
      = if (State.initial ctx).current.isEof = true then
          Prod.map id (fun t => (Parse.reportEmpty ctx t).2)
            (Parse.statementList (Grammar.levels options.maxNestingDepth) .eof
              ctx (State.initial ctx))
        else
          Parse.statementList (Grammar.levels options.maxNestingDepth) .eof
            ctx (State.initial ctx) := by
  unfold runScript Parse.script
  show (if _ then _ else _ : Action (List Statement)) _ _ = _
  split <;> rfl

/-- The statements of a script are those of its list, and no problem of the
list is lost. -/
theorem runScript_statementList (source : List Char) :
    let list := Parse.statementList (Grammar.levels 128) .eof
      (.ofSource source .standard .standard)
      (State.initial (.ofSource source .standard .standard))
    (runScript source .standard .standard).1 = list.1
      ∧ list.2.problems
        <+: (runScript source .standard .standard).2.problems := by
  intro list
  rw [runScript_eq]
  split
  · exact ⟨rfl, (State.report_grows ..).isPrefix⟩
  · exact ⟨rfl, List.prefix_rfl⟩

open Parse in
/-- **Every statement of a script** in which nothing is wrong has been read
somewhere. -/
theorem readBetween_of_quiet {source : List Char}
    (hquiet : (parse source).diagnostics = []) :
    ∀ S ∈ (parse source).program.body,
      ∃ u v, ReadBetween source 128 S u v := by
  obtain ⟨hbody, hprefix⟩ := runScript_statementList source
  have hproblems : (runScript source .standard .standard).2.problems = [] :=
    hquiet
  rw [hproblems, List.prefix_nil] at hprefix
  have hgood := State.initial_good (Mirror.alone source).root
  have hsound := Grammar.levels_sound (Mirror.alone source).root 128
  have hleads := (statementList_ensures hsound .eof (.refl _) hgood).1
  have hfirst : (State.initial (Mirror.alone source).root).problems = [] :=
    Mirror.Lawful.fits_of_leads (M := Mirror.alone source) hleads hprefix
  have hcomes := (statementsLoop_proceeds (Nat.lt_succ_self _) hsound).comes
    ((Context.Within.refl _).inList .eof) hgood []
  intro S hS
  exact (exists_readBetween hcomes (.refl hgood)
    (Mirror.alone_initial hfirst) hprefix S (hbody ▸ hS)).resolve_left
    List.not_mem_nil

/-! ## A statement as a script -/

/-- **A span that holds text** is a piece of it. -/
theorem Span.Fits.exists_excerpt {s : Span} {text : List Char}
    (h : s.Fits text) :
    ∃ X : Excerpt, X.text = text ∧ X.start = s.start ∧ X.stop = s.stop := by
  obtain ⟨a, b, rfl, ha⟩ := h.isCut_start
  obtain ⟨c, d, heq, hc⟩ := h.isCut_stop
  have hlt := h.start_lt_stop
  rcases List.append_eq_append_iff.1 heq with ⟨e, rfl, rfl⟩ | ⟨e, rfl, rfl⟩
  · refine ⟨⟨a, e, d⟩, rfl, ha, ?_⟩
    rw [← hc, byteLength_append]
    rfl
  · rw [byteLength_append] at ha
    omega

/-- What the other parse takes down does not matter. -/
theorem Mirror.Fresh.recordOther {M : Mirror} {s s' : State}
    (h : M.Fresh s s') (event : Event) :
    M.Fresh s { s' with events := s'.events.push event } :=
  { h with good' := h.good'.congr rfl rfl rfl rfl (fun _ => rfl) }

namespace Excerpt

variable {X : Excerpt} {S : Statement} {s s' t : State}

theorem slice_eq {span : Span} (hstart : X.start = span.start)
    (hstop : X.stop = span.stop) : span.slice X.text = X.part := by
  have hspan : span = ⟨X.start, X.stop⟩ := by rw [hstart, hstop]
  rw [hspan]
  exact Span.slice_append X.front X.part X.tail

/-- **The parse of a piece** is over where the piece has been read. -/
theorem part_statement {n : Nat} (h : X.mirror.Fresh s s')
    (hrun : (Grammar.levels n).statement (X.mirror.root.inList .eof) s
      = (.ok S, t)) (hfits : X.mirror.Fits t) (hend : t.consumedTo = X.stop)
    (hsuper : ∀ m ∈ (Node.statement S).all, m.isSuperTo X.stop = false) :
    ∃ t', (Grammar.levels n).statement (X.mirror.image.inList .eof) s'
        = (.ok (S.move (· - X.start)), t')
      ∧ t'.current.isEof = true ∧ ∀ d ∈ t'.problems, d.severity = .warning := by
  have hmarked : ¬X.mirror.Marked S := by
    rintro ⟨m, hm, k, hk, hmark⟩
    rw [nodes_statement, List.mem_singleton] at hm
    subst hm
    exact Bool.noConfusion ((hsuper k hk).symm.trans hmark)
  obtain ⟨t', hrun', halong⟩ :=
    ((Grammar.levels_mirrored (M := X.mirror) n).statement (H := True)
      (fun _ => h.start)).same trivial ((Context.Within.refl _).inList .eof)
        h.good hrun hfits hmarked
  refine ⟨t', hrun', ?_⟩
  rcases halong.at_ with hinside | hover
  · refine ⟨isEof_of_end hinside.toFresh hend, ?_⟩
    rw [hinside.problems_eq]
    exact List.forall_mem_nil _
  · exact ⟨hover.isEof, hover.warnings⟩

end Excerpt

open Parse in
/-- **A statement of a script is a script of its own**, unless `super` with
nothing behind it stands at its end. -/
theorem parse_excerpt {source : List Char} {S : Statement}
    (hquiet : (parse source).diagnostics = [])
    (hS : S ∈ (parse source).program.body)
    (hsuper : ∀ n ∈ (Node.statement S).all,
      n.isSuperTo S.span.stop = false) :
    (parse (S.span.slice source)).program.body
        = [S.move (· - S.span.start)]
      ∧ ∀ d ∈ (parse (S.span.slice source)).diagnostics,
        d.severity = .warning := by
  obtain ⟨u, v, h⟩ := readBetween_of_quiet hquiet S hS
  obtain ⟨hleads, hpast, hfills⟩ := (statement_ensures
    (Grammar.levels_sound (Mirror.alone source).root 128)).of_run
      ((Context.Within.refl _).inList .eof) h.leads.good h.run
  have hspan : S.span = ⟨u.here, v.consumedTo⟩ := hfills.spans
  obtain ⟨X, rfl, hstart, hstop⟩ := hfills.placed.fits.exists_excerpt
  have hstart : X.start = S.span.start := hstart
  have hstop : X.stop = S.span.stop := hstop
  rw [Excerpt.slice_eq hstart hstop, ← hstart]
  rw [← hstop] at hsuper
  rw [hspan] at hstart hstop
  have hfits : X.mirror.Fits v :=
    ⟨h.problems_eq, .inl ⟨hstop.symm, h.along'.dot⟩⟩
  obtain ⟨w, hfresh, heof, hrun⟩ := Excerpt.exists_fresh (n := 126)
    h.leads.good (h.leads.lexed (State.initial_lexed _)) hstart.symm
    (hstart ▸ hstop ▸ hpast) (h.along.at_.elim (·.clear) (·.clear))
    h.along.dot h.run hfits
  have hfirst : (State.initial X.mirror.image).current.isEof = false := by
    rw [hfresh.current_eq]
    exact heof
  -- The other parse takes the statement down before it reads it.
  have hrecorded := hfresh.recordOther (.statement
    (State.initial X.mirror.image).current.span.start
    (State.initial X.mirror.image).current.kind)
  obtain ⟨t, hread, hend, hwarnings⟩ :=
    Excerpt.part_statement hrecorded hrun hfits hstop.symm hsuper
  have hturns : 1 < X.mirror.image.turns := by
    have hlt : X.start < X.stop := hstart ▸ hstop ▸ hpast
    have hpart : X.stop = X.start + byteLength X.part := rfl
    show 1 < byteLength X.part + 1
    omega
  obtain ⟨hbody, hdiagnostics⟩ := parseWith_of_statementList hfirst
    (statementList_run (hfresh.good'.aborted_eq rfl) hfirst hread hend hturns)
  refine ⟨hbody, fun d hd => hwarnings d ?_⟩
  rw [State.problems, ← hdiagnostics]
  exact hd

/-- A slash behind a name opens a regular expression on a line of its own,
and a declaration misses the line break behind it. -/
theorem parse_excerpt_slash :
    let source := "a\n/b/.c;let d = e\nf".toList
    (parse source).program.body.length = 4
      ∧ (parse source).diagnostics = []
      ∧ ∀ S ∈ (parse source).program.body,
        (parse (S.span.slice source)).program.body
            = [S.move (· - S.span.start)]
          ∧ ∀ d ∈ (parse (S.span.slice source)).diagnostics,
            d.severity = .warning := by
  intro source
  have hquiet : (parse source).diagnostics = [] := by decide +kernel
  have hsuper : ∀ S ∈ (parse source).program.body,
      ∀ n ∈ (Node.statement S).all, n.isSuperTo S.span.stop = false := by
    decide +kernel
  refine ⟨by decide +kernel, hquiet, fun S hS => ?_⟩
  exact parse_excerpt hquiet hS (hsuper S hS)

/-- A line break and a bracket behind `super` are missed. -/
example :
    (parse "super\n[0]".toList).diagnostics = []
      ∧ (parse "super".toList).diagnostics.any Diagnostic.isError = true := by
  decide +kernel

end ScriptTree
