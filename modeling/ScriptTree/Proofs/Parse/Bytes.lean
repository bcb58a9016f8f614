import ScriptTree.Parse.Outcome
import ScriptTree.Proofs.Text.Utf8
import ScriptTree.Proofs.Token.Session

/-!
# Parsing bytes

Bytes are parsed as the text they are. Where they are none, there is no
tree, and the one problem reported is at the end of the longest text they
begin with: that is the place a reader can be led to, since up to there
lines and columns can be counted.
-/

namespace ScriptTree

end ScriptTree
