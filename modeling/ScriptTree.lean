import ScriptTree.Diagnostic
import ScriptTree.Operator.Standard
import ScriptTree.Operator.Table
import ScriptTree.Parse.Outcome
import ScriptTree.Text.Quoted
import ScriptTree.Token.Significant
import ScriptTree.Tree.Coverage
import ScriptTree.Tree.Dump
import ScriptTree.Tree.Label
import ScriptTree.Proofs.Token.Tiling
import ScriptTree.Proofs.Parse.Outcome
import ScriptTree.Proofs.Options.Tolerance
import ScriptTree.Proofs.Options.Reporting
import ScriptTree.Proofs.Options.Nesting
import ScriptTree.Proofs.Progress.Loop
import ScriptTree.Proofs.Progress.Turns
import ScriptTree.Proofs.Progress.Reading
import ScriptTree.Proofs.Progress.Script
import ScriptTree.Proofs.Mirror.Basic
import ScriptTree.Proofs.Mirror.Logic
import ScriptTree.Proofs.Mirror.Action
import ScriptTree.Proofs.Mirror.Recovery
import ScriptTree.Proofs.Mirror.Turns
import ScriptTree.Proofs.Mirror.Grammar
import ScriptTree.Proofs.Mirror.Peek
import ScriptTree.Proofs.Mirror.Callable
import ScriptTree.Proofs.Mirror.Arrow
import ScriptTree.Proofs.Mirror.Operand
import ScriptTree.Proofs.Mirror.Expression
import ScriptTree.Proofs.Mirror.Declaration
import ScriptTree.Proofs.Mirror.Loop
import ScriptTree.Proofs.Mirror.Module
import ScriptTree.Proofs.Mirror.Statement
import ScriptTree.Proofs.Token.Locality
import ScriptTree.Proofs.Token.Front
import ScriptTree.Proofs.Token.Stream
import ScriptTree.Proofs.Token.Respacing
import ScriptTree.Proofs.Token.Session
import ScriptTree.Proofs.Cursor.Session
import ScriptTree.Proofs.Cursor.Slices
import ScriptTree.Proofs.Cursor.Script
import ScriptTree.Proofs.Chain.Sum
import ScriptTree.Proofs.Account.Script
import ScriptTree.Proofs.Account.Strict
import ScriptTree.Proofs.Account.Walk
import ScriptTree.Proofs.Faded.Script
import ScriptTree.Proofs.Token.Context
import ScriptTree.Proofs.Token.Delimited
import ScriptTree.Proofs.Token.Stray
import ScriptTree.Proofs.Origin.Membership
import ScriptTree.Proofs.Words.Script
import ScriptTree.Proofs.Account.Regex
import ScriptTree.Proofs.Parse.Bytes
import ScriptTree.Proofs.Tree.Uncovered
import ScriptTree.Proofs.Parse.LookAhead
import ScriptTree.Proofs.Seat.Super
import ScriptTree.Proofs.Dump.Script
import ScriptTree.Proofs.Progress.Tolerant
import ScriptTree.Proofs.Plan.Overlook
import ScriptTree.Proofs.Register.Script
import ScriptTree.Proofs.Depth.Script
import ScriptTree.Proofs.Paired.Statement
import ScriptTree.Proofs.Excerpt.Script
