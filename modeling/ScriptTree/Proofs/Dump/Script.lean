import ScriptTree.Proofs.Account.Regex
import ScriptTree.Proofs.Dump.Named
import ScriptTree.Proofs.Dump.Statement
import ScriptTree.Proofs.Dump.Written
import ScriptTree.Proofs.Seat.Script

/-!
# A dump tells which tree it is of

Where a parse found nothing to complain about, its tree can be read back
(`parseWith_readable`): the names and numbers in it are bare texts, strings
and templates have their ends, and the literals that are not written as they
are have the spelling their kind asks for. So the dump of such a tree can be
taken apart into terms, and the terms tell the tree, as far as it is shown
(`parse_dump_eq_iff`).

What is not shown can make a difference. A function without a name that was
declared to run on the side has the dump of an ordinary function that is
called like the mark (`exists_dump_eq`).
-/

namespace ScriptTree

/-! ## Leaves -/

theorem isBare_of_isWordChar {c : Char} (h : isWordChar c = true) :
    isBare c = true :=
  isBare_of_all (by decide) h

theorem isBare_of_isNumberChar {c : Char} (h : isNumberChar c = true) :
    isBare c = true :=
  isBare_of_all (by decide) h

theorem Keyword.isBare_spelling (k : Keyword) :
    ∀ c ∈ k.spelling.toList, isBare c = true := by
  have hall : (all.all fun k => k.spelling.toList.all isBare) = true := by
    decide
  exact List.all_eq_true.1 (List.all_eq_true.1 hall k (mem_all k))

section Leaves

variable {t : Token} {error : Option LexError} {w : List Char}

theorem IsForm.isBare_of_identifier (h : IsForm .identifier error w) :
    ∀ c ∈ w, isBare c = true := by
  cases h with
  | identifier h => exact fun c hc => isBare_of_isWordChar (h c hc)
  | quoted hkind => exact nomatch hkind
  | other _ hother => exact absurd rfl hother

theorem IsForm.isBare_of_number (h : IsForm .number error w) :
    ∀ c ∈ w, isBare c = true := by
  cases h with
  | number h => exact fun c hc => isBare_of_isNumberChar (h c hc)
  | quoted hkind => exact nomatch hkind
  | other _ _ _ hother => exact absurd rfl hother

theorem IsForm.eq_of_keyword {k : Keyword}
    (h : IsForm (.keyword k) error w) : w = k.spelling.toList := by
  cases h with
  | keyword => rfl
  | quoted hkind => exact nomatch hkind
  | other _ _ hother => exact absurd rfl (hother k)

theorem IsForm.delimited {kind : TokenKind} (h : IsForm kind none w)
    (hkind : kind.isQuoted = true) :
    ∃ v behind, Delimited kind v ∧ w = v ++ kind.flags behind := by
  cases h with
  | quoted _ h => exact h rfl
  | other hother => exact absurd (hother.symm.trans hkind) (by decide)
  | identifier | keyword | number => exact nomatch hkind

/-- **A name** is a bare text. -/
theorem Token.HasForm.identifierOf_legible (h : t.HasForm)
    (hname : Parse.namesProperty t = true) :
    (Parse.identifierOf t).Legible := by
  unfold Token.HasForm at h
  rcases Parse.kind_of_namesProperty hname with hk | ⟨k, hk⟩
  · rw [hk] at h
    exact h.isBare_of_identifier
  · rw [hk] at h
    show ∀ c ∈ t.text.toList, isBare c = true
    rw [h.eq_of_keyword]
    exact k.isBare_spelling

/-- **A regular expression** is its pattern between two slashes, and its
flags behind them. -/
theorem Literal.Scanned.raw_eq {source : List Char} {l : Literal}
    {pattern flags : String} (hscanned : l.Scanned source)
    (hkind : l.kind = .regex pattern flags) {v behind : List Char}
    (hv : Delimited .regex v)
    (hraw : l.raw.toList = v ++ TokenKind.regex.flags behind) :
    l.raw = "/" ++ pattern ++ "/" ++ flags := by
  obtain ⟨-, -, -, -, -, hsplits⟩ := hscanned pattern flags hkind
  have hslash : '/' ∉ TokenKind.regex.flags behind := fun h =>
    absurd (List.all_eq_true.mp List.all_takeWhile _ h) (by decide)
  cases hv with
  | @regex body _ =>
    have htext : l.raw.toList
        = '/' :: (body ++ '/' :: TokenKind.regex.flags behind) := by
      simp [hraw]
    rw [htext] at hsplits
    obtain ⟨hpattern, hflags⟩ := hsplits.eq_of_not_mem hslash
    refine String.toList_injective ?_
    simp [htext, hpattern, hflags]

/-- **A literal can be read back** if nothing is wrong with the token it is
written with. -/
theorem Token.HasForm.literal_legible {source : List Char} {l : Literal}
    (h : t.HasForm) (herror : t.error = none) (hsuits : l.kind.Suits t)
    (hraw : l.raw = t.text) (hscanned : l.Scanned source) : l.Legible := by
  unfold Token.HasForm at h
  rw [herror, ← hraw] at h
  -- A reserved word that is a literal has one spelling.
  have hword {k : Keyword} (hnot : l.kind.tokenKind? = none)
      (hk : l.kind.word? = some k) : l.raw = k.spelling := by
    rcases hsuits with hkind | ⟨k', hk', hkind⟩
    · exact nomatch hnot.symm.trans hkind
    · obtain rfl := Option.some.inj (hk.symm.trans hk')
      rw [hkind] at h
      exact String.toList_injective h.eq_of_keyword
  -- The other literals are tokens of their own.
  have hown {kind : TokenKind} (hkind : l.kind.tokenKind? = some kind)
      (hnot : l.kind.word? = none) : IsForm kind none l.raw.toList := by
    rcases hsuits with hkind' | ⟨k, hk, -⟩
    · rwa [Option.some.inj (hkind.symm.trans hkind')]
    · exact nomatch hnot.symm.trans hk
  unfold Literal.Legible
  split <;> rename_i hl <;> rw [hl] at hword hown
  · exact (hown rfl rfl).isBare_of_number
  · obtain ⟨v, behind, hv, heq⟩ := (hown rfl rfl).delimited rfl
    rwa [heq, show TokenKind.string.flags behind = [] from rfl,
      List.append_nil]
  · obtain ⟨v, behind, hv, heq⟩ := (hown rfl rfl).delimited rfl
    rwa [heq, show TokenKind.template.flags behind = [] from rfl,
      List.append_nil]
  · obtain ⟨v, behind, hv, heq⟩ := (hown rfl rfl).delimited rfl
    exact hscanned.raw_eq hl hv heq
  · exact hword rfl rfl
  · exact hword rfl rfl
  · exact hword rfl rfl
  · exact hword rfl rfl

end Leaves

/-! ## Whole trees -/

/-- The names of a tree are the leaves that are names. -/
theorem Node.name_mem_leaves {n : Node} {id : Identifier}
    (h : .identifier id ∈ n.all) : .name id ∈ n.leaves :=
  List.mem_filterMap.2 ⟨_, h, rfl⟩

/-- The literals of a tree are the leaves that are literals. -/
theorem Node.literal_mem_leaves {n : Node} {l : Literal}
    (h : .literal l ∈ n.all) : .literal l ∈ n.leaves :=
  List.mem_filterMap.2 ⟨_, h, rfl⟩

/-- In every tree the parts are what the grammar has there. -/
theorem parseWith_parts (options : Options) (table : OperatorTable)
    (source : List Char) :
    (Node.program (parseWith options table source).program).Everywhere
      (Node.Seated fun _ _ => True) :=
  parseWith_seated options table source
    { error := fun _ => trivial
      name := fun _ => trivial
      plain := fun _ => trivial
      exported := fun _ => trivial
      assigned := by intros; trivial
      deleted := by intros; trivial
      folded := by intros; trivial
      whole := by intros; trivial }

/-- **A tree can be read back** if its parse found nothing to complain
about. -/
theorem parseWith_readable {options : Options} {table : OperatorTable}
    {source : List Char} (htolerant : options.tolerant = true)
    (hroom : 0 < options.maxDiagnostics)
    (hquiet : (parseWith options table source).diagnostics = []) :
    (Node.program (parseWith options table source).program).Readable := by
  have hreached := runScript_reached options table source
  obtain ⟨ts, hknown, hspent, -⟩ := runScript_spent htolerant hroom hquiet
  have hform : ∀ t ∈ ts, t.HasForm := fun t ht =>
    hreached.known_hasForm t (hknown t ht)
  have hclear : ∀ t ∈ ts, t.error = none := fun t ht =>
    hreached.sound.clear (runScript_clean htolerant hroom hquiet) t
      (hknown t ht)
  intro n hn
  refine ⟨parseWith_parts options table source n hn, ?_⟩
  split
  · rename_i id
    obtain ⟨t, ht, hnames, rfl⟩ :=
      hspent.exists_name (Node.name_mem_leaves hn)
    exact (hform t ht).identifierOf_legible hnames
  · rename_i l
    obtain ⟨t, ht, hsuits, hraw, -⟩ :=
      hspent.exists_literal (Node.literal_mem_leaves hn)
    exact (hform t ht).literal_legible (hclear t ht) hsuits hraw
      (parseWith_scanned options table source _ hn l rfl)
  · trivial

/-- **Scripts that can be read back** are told by their dumps. -/
theorem Program.dump_eq_iff {p p' : Program}
    (h : (Node.program p).Readable) (h' : (Node.program p').Readable) :
    p.dump = p'.dump
      ↔ p.body.map Statement.shown = p'.body.map Statement.shown := by
  constructor
  · intro hdump
    exact shown_eq_of_term_eq h h'
      (p.term_legible h |>.eq_of_render_eq (p'.term_legible h') hdump)
  · intro hshown
    have hterms := congrArg (List.map Statement.term) hshown
    have hkeep : Statement.term ∘ Statement.shown = Statement.term :=
      funext fun s => s.shown_term
    rw [List.map_map, List.map_map, hkeep, ← statementTerms_eq,
      ← statementTerms_eq] at hterms
    show (Sexp.node "program" _).render = (Sexp.node "program" _).render
    rw [hterms]

/-- **Trees with the same dump.** Where the parses of two texts found
nothing to complain about, their dumps are the same just if the trees are,
as far as they are shown: all places are taken for one, and a function
without a name that runs on the side is taken for an ordinary one with the
name of the mark. If neither tree has such a function, the dumps are the
same just if only the places tell the trees apart. -/
theorem parse_dump_eq_iff (source source' : List Char)
    (hquiet : (parse source).diagnostics = [])
    (hquiet' : (parse source').diagnostics = []) :
    ((parse source).program.dump = (parse source').program.dump
      ↔ (parse source).program.body.map Statement.shown
        = (parse source').program.body.map Statement.shown)
    ∧ ((parse source).program.IsNamed → (parse source').program.IsNamed →
      ((parse source).program.dump = (parse source').program.dump
        ↔ (parse source).program.body.map (Statement.move nowhere)
          = (parse source').program.body.map (Statement.move nowhere))) := by
  have hiff := Program.dump_eq_iff
    (parseWith_readable rfl (by decide) hquiet)
    (parseWith_readable rfl (by decide) hquiet')
  refine ⟨hiff, fun hnamed hnamed' => ?_⟩
  rw [← hnamed.shown_eq_move, ← hnamed'.shown_eq_move]
  exact hiff

/-- A script in two spacings. -/
theorem parse_dump_eq_iff_spacing :
    let source := "async function f(a)\x7bawait a\x7dx=/[/]/g"
    let source' := "async function f(a) \x7b\n  await a\n\x7d\nx = /[/]/g"
    (parse source.toList).program.body.map (Statement.move nowhere)
      = (parse source'.toList).program.body.map (Statement.move nowhere) := by
  intro source source'
  have h := parse_dump_eq_iff source.toList source'.toList
    (by decide +kernel) (by decide +kernel)
  exact (h.2 (by decide +kernel) (by decide +kernel)).1 (by decide +kernel)

/-- **A function without a name** that runs on the side has the dump of an
ordinary one that is called like the mark. -/
theorem exists_dump_eq :
    ¬∀ source source' : List Char, (parse source).diagnostics = [] →
      (parse source').diagnostics = [] →
      (parse source).program.dump = (parse source').program.dump →
      (parse source).program.body.map (Statement.move nowhere)
        = (parse source').program.body.map (Statement.move nowhere) := by
  intro h
  have hsame := h "function async()\x7b\x7d".toList
    "async function()\x7b\x7d".toList (by decide +kernel)
    (by decide +kernel) (by decide +kernel)
  -- In the first tree every function has a name, in the second one not.
  let script (body : List Statement) : Program := ⟨body, [], ⟨0, 0⟩⟩
  have hnamed : (script
      ((parse "function async()\x7b\x7d".toList).program.body.map
        (Statement.move nowhere))).IsNamed := by decide +kernel
  rw [hsame] at hnamed
  exact absurd hnamed (by decide +kernel)

end ScriptTree
