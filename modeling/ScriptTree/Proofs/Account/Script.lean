import ScriptTree.Parse.Outcome
import ScriptTree.Proofs.Account.Problem
import ScriptTree.Proofs.Account.Statement
import ScriptTree.Proofs.Token.Session

/-!
# Where the problems of a parse are

The run of a parse is one of acts, and so its problems are in order
(`State.Reached.orderly`). For a reader of the problems that means: each of
them is in its place, those with tokens stand one behind the other, and a
token that is at fault is not blamed once more for being there.

A slash is the exception. It may be blamed for standing where a statement
should have ended, and be found to be at fault when the next statement is
read, which begins with it.
-/

namespace ScriptTree

/-- **A problem where a reader looks for it.** -/
structure Diagnostic.WellPlaced (source : List Char) (d : Diagnostic) :
    Prop where
  /-- Its span does not end before it begins. -/
  le : d.span.start ≤ d.span.stop
  /-- Its span does not end behind the text. -/
  stop_le : d.span.stop ≤ byteLength source
  /-- Its span begins between two characters. -/
  isCut_start : IsCut source d.span.start
  /-- Its span ends between two characters. -/
  isCut_stop : IsCut source d.span.stop
  /-- Its position is right, and fits into words. -/
  isRight : d.position.IsRight source d.span.start
  /-- It tells how many lines and columns there are before the span. -/
  position_eq : ∃ before rest, source = before ++ rest
    ∧ d.span.start = byteLength before ∧ d.position = .counted before

theorem Diagnostic.Placed.wellPlaced {source : List Char} {d : Diagnostic}
    (h : d.Placed source) (hshort : byteLength source < UInt32.size - 1) :
    d.WellPlaced source := by
  obtain ⟨before, rest, hs, hlength⟩ := h.framed.isCut_start
  have hposition : d.position = .after before := by
    rw [h.position_eq, hs, ← hlength, positionAt_append]
  refine ⟨h.framed.le, h.framed.isCut_stop.le, h.framed.isCut_start,
    h.framed.isCut_stop, ?_, before, rest, hs, hlength.symm,
    hposition.trans (Position.after_eq_counted hs hshort)⟩
  rw [hposition, ← hlength]
  exact Position.after_isRight hs hshort

namespace Parse

open State ScriptTree.Action

variable {root : Context} {s : State}

/-- A script without a token is taken down as a whole. -/
theorem reportEmpty_accounts :
    Action.Accounts root reportEmpty root s
      (fun _ t => s.Gathers root [] t) := by
  have hmessage : ¬IsMismatch "empty source" := by
    rintro ⟨expected, found, h⟩
    have hlist := congrArg String.toList h
    simp at hlist
  have hcut : IsCut root.source (byteLength root.source) := by
    have hcut := isCut_append root.source []
    rwa [List.append_nil] at hcut
  refine .look root rfl ((report_accounts _ (fun _ => ?_)).mono
    (fun _ _ _ h => h.1))
  exact ⟨by decide, ⟨isCut_append [] _, hcut, Nat.zero_le _⟩,
    fun hm => absurd hm hmessage⟩

/-- **A whole script** accounts for its tokens. -/
theorem script_accounts {g : Grammar} (hg : g.Gathers root) :
    Action.Accounts root (script g) root s
      (fun xs t => s.Gathers root (xs.map .statement) t) := by
  refine .look s.current rfl ?_
  refine (statementList_accounts hg .eof).bind fun xs t _ hxs => ?_
  dsimp only
  refine .ite (fun _ => ?_) (fun _ => .pure hxs)
  exact reportEmpty_accounts.bind fun _ u _ hu => .pure (hxs.later hu)

end Parse

variable (options : Options) (table : OperatorTable) (source : List Char)

/-- **The run of a parse** accounts for its tokens. -/
theorem runScript_gathers :
    (State.initial (.ofSource source options table)).Gathers
      (.ofSource source options table)
      ((runScript source options table).1.map .statement)
      (runScript source options table).2 :=
  (Parse.script_accounts (Grammar.levels_gathers _ _) (.refl _) .refl).2

theorem runScript_reached :
    (runScript source options table).2.Reached
      (.ofSource source options table) :=
  (runScript_gathers options table source).acts

/-- **The problems of a parse** are in their places; those with tokens are
not empty and stand one behind the other; and what was found instead of
something else is not at fault itself, unless it is a slash that was blamed
first and then read again as a regular expression without an end. -/
theorem parseWith_wellPlaced
    (hshort : byteLength source < UInt32.size - 1) :
    let ds := (parseWith options table source).diagnostics
    (∀ d ∈ ds, d.WellPlaced source)
      ∧ (∀ d ∈ ds, d.isLexical = true → d.span.start < d.span.stop)
      ∧ (ds.filter Diagnostic.isLexical).Pairwise
        (fun d e => d.span.stop ≤ e.span.start)
      ∧ ds.Pairwise (Diagnostic.Agree source) := by
  have horderly := (runScript_reached options table source).orderly
  refine ⟨fun d hd => (horderly.placed d hd).wellPlaced hshort,
    fun d hd hlexical => ?_, ?_, horderly.pairwise⟩
  · obtain ⟨b, e, _, hbe, _, hspan⟩ := horderly.row.exists_of_mem
      (List.mem_filter.2 ⟨hd, hlexical⟩)
    rw [show d.span = _ from hspan]
    exact hbe
  · refine horderly.row.pairwise.imp ?_
    rintro d e ⟨b, c, b', c', hd, he, hle⟩
    rw [show d.span = _ from hd, show e.span = _ from he]
    exact hle

/-- A string without an end in a statement that is given up, and a slash
that is blamed and then read again. -/
theorem parseWith_wellPlaced_slash :
    let source := "x = ); 'é\ndo{}while(x)/".toList
    let ds := (parseWith .standard .standard source).diagnostics
    byteLength source < UInt32.size - 1
      ∧ (∀ d ∈ ds, d.WellPlaced source)
      ∧ (∀ d ∈ ds, d.isLexical = true → d.span.start < d.span.stop)
      ∧ (ds.filter Diagnostic.isLexical).Pairwise
        (fun d e => d.span.stop ≤ e.span.start)
      ∧ ds.Pairwise (Diagnostic.Agree source) :=
  ⟨by decide, parseWith_wellPlaced .standard .standard _ (by decide)⟩

/-- **A slash may be blamed twice**: for standing where a terminator should
be, and as a regular expression without an end. -/
theorem exists_mismatch_at_lexical :
    ¬∀ (options : Options) (table : OperatorTable) (source : List Char),
      byteLength source < UInt32.size - 1 →
      ∀ d ∈ (parseWith options table source).diagnostics,
      ∀ e ∈ (parseWith options table source).diagnostics,
        IsMismatch d.message → e.isLexical = true → d.span ≠ e.span := by
  intro h
  have hdiagnostics : (parseWith .standard .standard
      "do{}while(x)/".toList).diagnostics
        = [⟨.structural, .error, "expected ';' or line break, found '/'",
            ⟨12, 13⟩, ⟨1, 13, 12⟩⟩,
          ⟨.lexical, .error, "unterminated regular expression",
            ⟨12, 13⟩, ⟨1, 13, 12⟩⟩] := by
    decide +kernel
  have hparse := h .standard .standard "do{}while(x)/".toList (by decide)
  rw [hdiagnostics] at hparse
  exact hparse _ List.mem_cons_self _
    (List.mem_cons_of_mem _ List.mem_cons_self)
    ⟨"';' or line break", "'/'", rfl⟩ rfl rfl

end ScriptTree
