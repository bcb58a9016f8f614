import ScriptTree.Text.Blank
import ScriptTree.Tree.Basic

/-!
# Text no node covers

A script's statements and comments cover the text they were read from.
What lies between them should be white space alone; `Program.uncovered`
finds everything that is not, and so tells whether a tree has lost part
of its text. It works for any spans: they may overlap, be out of order,
or reach beyond the text.
-/

namespace ScriptTree

/-- **The text of a gap without the white space around it**, as a span,
if anything is left. The gap begins at the offset `start`. -/
def trimmedSpan (start : Nat) (gap : List Char) : List Span :=
  let front := trimStart gap
  let core := trimEnd front
  if core.isEmpty then []
  else
    let start := start + (byteLength gap - byteLength front)
    [⟨start, start + byteLength core⟩]

/-- **Sweeps over spans ordered by their starts.** Everything before
`reached` is dealt with. The text from the `offset` on is `rest`: where
`reached` falls inside a character or beyond the end there is no gap, and
the sweep goes on from the last place where the text could be cut. -/
def sweepGaps (offset : Nat) (rest : List Char) (reached : Nat) :
    List Span → List Span
  | [] =>
    match splitAtByte? rest (reached - offset) with
    | some (_, gap) => trimmedSpan reached gap
    | none => []
  | s :: spans =>
    match splitAtByte? rest (reached - offset) with
    | some (_, rest) =>
      let gap := ((splitAtByte? rest (s.start - reached)).map Prod.fst).getD []
      trimmedSpan reached gap
        ++ sweepGaps reached rest (max reached s.stop) spans
    | none => sweepGaps offset rest (max reached s.stop) spans

namespace Program

/-- The spans that cover text: those of the statements, then those of the
comments. -/
def coveringSpans (p : Program) : List Span :=
  p.body.map Statement.span ++ p.comments.map Comment.span

/-- **The text that is in no statement, no comment, and no white
space**, as spans in the order of the text. -/
def uncovered (p : Program) (source : List Char) : List Span :=
  sweepGaps 0 source 0
    (p.coveringSpans.mergeSort (fun a b => a.start ≤ b.start))

end Program

end ScriptTree
