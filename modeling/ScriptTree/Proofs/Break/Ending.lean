import ScriptTree.Proofs.Account.Walk
import ScriptTree.Proofs.Break.Course
import ScriptTree.Proofs.Derive.Statement

/-!
# Where statements end

A statement that has to be ended by a terminator is followed by a
semicolon, which is its last token then, or by a line break, or by the token
that closes the statement list it is the last of; and the latter only where
it may do without a terminator (`parse_ends`).

A derivation tells of the states between which each statement was read
(`Derivation.ends`), so it remains to be said what the states tell of the
text: what was current where the statement ended is the next token that was
read in the end, unless a slash was read again in its place, and a line
break that was noted there is in no comment of the script.

The tokens meant are the ones the parse has read (`readTokens`). They are
those of the text, unless a regular expression stands in the place of a
slash (`readTokens_eq`).
-/

namespace ScriptTree

open State

/-- A slash closes no statement list. -/
theorem Token.isSlash_of_closes {t : Token} {listEnd : ListEnd}
    (h : t.closes listEnd = true) : t.isSlash = false := by
  refine Bool.eq_false_iff.2 (fun hslash => ?_)
  rcases isSlash_iff.1 hslash with hkind | hkind <;> cases listEnd <;>
    simp [closes, isEof, isPunctuator, isKeyword, hkind] at h

/-! ## The states between which a statement is read -/

namespace Node

/-- A node that occurs in a tree is one of its nodes. -/
theorem Within.mem_all {n m : Node} {e e' : ListEnd}
    (h : n.Within e m e') : m ∈ n.all := by
  induction h with
  | here n => exact n.mem_all_self
  | child hc _ ih => exact mem_all_iff.2 (.inr ⟨_, hc, ih⟩)

/-- **Each node of a tree occurs in it** in some statement list. -/
theorem exists_within {n m : Node} (hm : m ∈ n.all) (e : ListEnd) :
    ∃ e', n.Within e m e' := by
  rcases mem_all_iff.1 hm with rfl | ⟨c, hc, hm⟩
  · exact ⟨e, .here m e⟩
  · obtain ⟨e', hwithin⟩ := exists_within hm (n.inside e)
    exact ⟨e', .child hc hwithin⟩
termination_by sizeOf n
decreasing_by exact sizeOf_child_lt hc

end Node

/-- **A statement is read between two states** of a run, and ends at the
second. -/
theorem Derivation.ends {root : Context} {e e' : ListEnd} {matters : Bool}
    {K : Set Mark} {s t : State} {ns : List Node}
    (h : Derivation root e matters K s ns t) {n : Node} (hn : n ∈ ns)
    {x : Statement} (hx : n.Within e (.statement x) e') {mayTrail : Bool}
    (hends : x.terminator? = some mayTrail) :
    ∃ u v, Acts root s u ∧ Acts root u v ∧ Acts root v t
      ∧ v.EndsStatement e' mayTrail ∧ x.span = v.spanFrom u.here := by
  induction h generalizing n with
  | rest | look | token | rescan => exact nomatch hn
  | free _ ih => exact ih hn hx
  | append before behind ih ih' =>
    rcases List.mem_append.1 hn with hn | hn
    · obtain ⟨u, v, hsu, huv, hvt, hend⟩ := ih hn hx
      exact ⟨u, v, hsu, huv, hvt.trans behind.acts, hend⟩
    · obtain ⟨u, v, htu, huv, hvu, hend⟩ := ih' hn hx
      exact ⟨u, v, before.acts.trans htu, huv, hvu, hend⟩
  | @node _ _ _ s t _ _ parts _ ends ih =>
    obtain rfl := List.mem_singleton.1 hn
    cases hx with
    | here => exact ⟨s, t, .refl, parts.acts, .refl, ends mayTrail hends⟩
    | child hc hx => exact ih hc hx
  | bracket isBracketed _ opener _ closer _ ih =>
    obtain rfl := List.mem_singleton.1 hn
    cases hx with
    | here => exact nomatch isBracketed
    | child hc hx =>
      obtain ⟨u, v, hsu, huv, hvt, hend⟩ := ih hc hx
      exact ⟨u, v, .head (.bump opener) hsu, huv, hvt.tail (.bump closer),
        hend⟩

/-! ## The tokens of a parse -/

namespace State

variable {root : Context} {s t u v : State}

/-- **The tokens a parse knows**, in the order of the text. What is current
before anything has been looked at is left out. -/
def read (s : State) : List Token := s.known.reverse.tail

/-- Behind all other tokens that have been taken is the one that is none of
the text. -/
theorem Reached.exists_taken_eq (hs : s.Reached root) :
    ∃ taken, s.taken = taken ++ [(blank root.source).current] := by
  obtain ⟨behind, now, hknown, -⟩ := Acts.exists_known hs (initial_good root)
  rw [initial_taken] at hknown
  cases behind with
  | nil => exact ⟨[], (List.cons.inj hknown).2⟩
  | cons x behind =>
    refine ⟨behind ++ [now], ?_⟩
    rw [List.append_assoc]
    exact (List.cons.inj hknown).2

/-- **What a statement ends with and what comes behind it**, if it was read
between two states of a run. -/
theorem Reached.exists_read_eq (hu : u.Reached root) (huv : Acts root u v)
    (hpast : u.here < v.consumedTo) (hvt : Acts root v t) :
    ∃ front last next back, t.read = front ++ last :: next :: back
      ∧ v.taken.head? = some last
      ∧ u.here ≤ last.span.start ∧ last.span.stop = v.consumedTo
      ∧ next.span.start = v.here
      ∧ (v.current.isSlash = false → next = v.current) := by
  have hv := hu.acts huv
  obtain ⟨taken, hbefore⟩ := hu.exists_taken_eq
  obtain ⟨behind, now, htaken, hstart, hbehind⟩ :=
    Acts.exists_taken huv hu.good hpast
  obtain ⟨back, next, hknown, hnext, hslash, -⟩ :=
    Acts.exists_known hvt hv.good
  obtain ⟨last, hlast, hstop⟩ := hv.stop_eq
  -- The last token of those read since `u` is current there or behind it.
  obtain ⟨rest, hrest, hle⟩ : ∃ rest, behind ++ [now] = last :: rest
      ∧ u.here ≤ last.span.start := by
    rw [htaken] at hlast
    cases behind with
    | nil =>
      obtain rfl := Option.some.inj hlast
      exact ⟨[], rfl, Nat.le_of_eq hstart.symm⟩
    | cons x behind =>
      obtain rfl := Option.some.inj hlast
      exact ⟨behind ++ [now], rfl,
        Nat.le_of_lt (hbehind x List.mem_cons_self)⟩
  refine ⟨(rest ++ taken).reverse, last, next, back.reverse, ?_, hlast, hle,
    hstop, hnext, hslash⟩
  have hall : t.known = (back ++ next :: last :: (rest ++ taken))
      ++ [(blank root.source).current] := by
    rw [hknown, htaken, hbefore, List.append_cons behind, hrest]
    simp
  rw [read, hall]
  simp

end State

/-- **The tokens a parse has read**, in the order of the text, with the end
of the text as the last. -/
def readTokens (source : List Char) : List Token :=
  (runScript source .standard .standard).2.read

section Quiet

variable {source : List Char}

/-- Where there is nothing to complain about, the parse ends quietly at the
end of the text. -/
theorem runScript_quiet (hquiet : (parse source).diagnostics = []) :
    (runScript source .standard .standard).2.Quiet
        (.ofSource source .standard .standard)
      ∧ (runScript source .standard .standard).2.current.isEof = true := by
  have hreached := runScript_reached .standard .standard source
  have hproblems : (runScript source .standard .standard).2.problems = [] :=
    hquiet
  refine ⟨⟨⟨hreached.good.aborted_eq rfl, ?_, ?_⟩, hproblems⟩,
    (runScript_ensures .standard .standard source).2.isEof rfl⟩
  · rw [hproblems]
    exact Nat.zero_lt_succ _
  · rw [hproblems]
    exact fun _ hd => nomatch hd

/-- **The tokens a parse has read are those of the text**, if no regular
expression of the tree stands in the place of a slash. -/
theorem readTokens_eq (hquiet : (parse source).diagnostics = [])
    (hslash : (Node.program (parse source).program).KeepsSlashes source) :
    ∃ last, last.isEof = true
      ∧ readTokens source = significantTokens source ++ [last] := by
  obtain ⟨hends, heof⟩ := runScript_quiet hquiet
  obtain ⟨ts, hknown, hspent, hstream⟩ :=
    (runScript_gathers .standard .standard source).spent_of_eof
      hends.toClean heof
  have hread : readTokens source
      = ts ++ [(runScript source .standard .standard).2.current] := by
    rw [readTokens, State.read, hknown]
    simp
  refine ⟨_, heof, ?_⟩
  rcases hstream with heq | ⟨y, hy, hregex, z, hz, hzslash, hzy⟩
  · rw [hread]
    exact congrArg (· ++ _) heq.symm
  · obtain ⟨l, hl, hkind, hspan⟩ := hspent.exists_regex hy hregex
    have hleaf : l ∈ (Node.program (parse source).program).literals := by
      rw [Node.literals, Node.leaves_of_leaf?_eq_none rfl]
      exact hl
    exact absurd ⟨hkind, z, hz, hzslash, hzy.trans (by rw [hspan])⟩
      (hslash l hleaf)

/-- **A statement that has to be ended is.** Its last token is a semicolon,
or a line break that is in no comment lies between it and the next token, or
the next token closes the statement list it stands in; the last only if it
may do without a terminator. -/
theorem parse_ends (hquiet : (parse source).diagnostics = [])
    {x : Statement} {listEnd : ListEnd} {mayTrail : Bool}
    (hx : (Node.program (parse source).program).Within .eof (.statement x)
      listEnd)
    (hends : x.terminator? = some mayTrail) :
    ∃ front last next back,
      readTokens source = front ++ last :: next :: back
      ∧ x.span.start ≤ last.span.start ∧ last.span.stop = x.span.stop
      ∧ (last.isPunctuator .semicolon = true
        ∨ HasBreak source (parse source).program.comments x.span.stop
          next.span.start
        ∨ mayTrail = true ∧ next.closes listEnd = true) := by
  obtain ⟨hfits, -⟩ := runScript_quiet hquiet
  obtain ⟨K, hyields, -⟩ :=
    runScript_derives (Replay.alone (.ofSource source .standard .standard))
  obtain ⟨c, hc, hx⟩ : ∃ c ∈ (parse source).program.body.map Node.statement,
      c.Within .eof (.statement x) listEnd := by
    cases hx with
    | child hc hx => exact ⟨_, hc, hx⟩
  have hlt : (Node.statement x).span.start < (Node.statement x).span.stop := by
    obtain ⟨y, hy, rfl⟩ := List.mem_map.1 hc
    have hplaced := parseWith_body .standard .standard source y hy _ hx.mem_all
    exact hplaced.1.fits.start_lt_stop
  obtain ⟨u, v, hu, huv, hvt, hend, hspan⟩ :=
    (hyields.tree hfits).ends hc hx hends
  have hstart : x.span.start = u.here := by rw [hspan]; rfl
  have hstop : x.span.stop = max v.consumedTo u.here := by rw [hspan]; rfl
  change x.span.start < x.span.stop at hlt
  have hpast : u.here < v.consumedTo := by omega
  have hu : u.Reached _ := hu
  have hv := hu.acts huv
  obtain ⟨front, last, next, back, hread, hlast, hle, hlaststop, hnext,
    hslash⟩ := hu.exists_read_eq huv hpast hvt
  refine ⟨front, last, next, back, hread, by omega, by omega, ?_⟩
  rcases hend with ⟨token, htoken, hsemicolon⟩ | hbreak | ⟨htrail, hcloses⟩
  · obtain rfl : token = last := Option.some.inj (htoken.symm.trans hlast)
    exact .inl hsemicolon
  · obtain ⟨a, b, hsource, hlo, hhi, hcomments⟩ :=
      hv.exists_lineBreak hbreak
    refine .inr (.inl ⟨a, b, hsource, by omega, by omega, fun c hc => ?_⟩)
    rcases Acts.comments hvt hv.good c (Array.mem_toList_iff.1 hc) with
      hc | hbehind
    · exact hcomments c (Array.mem_toList_iff.2 hc)
    · exact .inl (Nat.lt_trans hhi hbehind)
  · rw [hslash (Token.isSlash_of_closes hcloses)]
    exact .inr (.inr ⟨htrail, hcloses⟩)

end Quiet

/-- A statement that is the last of a function, without a terminator, and
behind it a line break that is in a comment. -/
theorem parse_ends_return :
    let source := "f = a => \x7b return a /*\n*/ \x7d".toList
    ∃ x listEnd mayTrail, (parse source).diagnostics = []
      ∧ (Node.program (parse source).program).Within .eof (.statement x)
        listEnd
      ∧ x.span = ⟨11, 19⟩
      ∧ x.terminator? = some mayTrail
      ∧ ∃ front last next back,
        readTokens source = front ++ last :: next :: back
        ∧ x.span.start ≤ last.span.start ∧ last.span.stop = x.span.stop
        ∧ (last.isPunctuator .semicolon = true
          ∨ HasBreak source (parse source).program.comments x.span.stop
            next.span.start
          ∨ mayTrail = true ∧ next.closes listEnd = true) := by
  intro source
  have hquiet : (parse source).diagnostics = [] := by decide +kernel
  have hany : (Node.program (parse source).program).all.any (fun n =>
      n.terminator? = some true && n.span = ⟨11, 19⟩) = true := by
    decide +kernel
  obtain ⟨n, hn, hreturn⟩ := List.any_eq_true.1 hany
  simp only [Bool.and_eq_true, decide_eq_true_eq] at hreturn
  obtain ⟨x, rfl⟩ : ∃ x, n = .statement x := by
    cases n with
    | statement x => exact ⟨x, rfl⟩
    | _ => exact nomatch hreturn.1
  obtain ⟨listEnd, hx⟩ := Node.exists_within hn .eof
  exact ⟨x, listEnd, true, hquiet, hx, hreturn.2, hreturn.1,
    parse_ends hquiet hx hreturn.1⟩

end ScriptTree
