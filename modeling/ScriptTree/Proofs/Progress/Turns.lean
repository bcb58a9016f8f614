import ScriptTree.Parse.Statement
import ScriptTree.Proofs.Progress.Loop

/-!
# The loops of the grammar

Each loop of the grammar with its single turn: what is done before the
loop may be left or go on. The turn of a loop over a list has the items
found so far, the last of them first; a loop that passes over tokens has
the bracket depth and whether anything was taken.
-/

namespace ScriptTree.Parse

open ScriptTree.Action

/-! ## Passing over tokens -/

/-- One turn of `skipTo`. -/
def skipToTurn (point : TolerantPoint) (x : Nat × Bool) :
    Action (Turn (Nat × Bool) Bool) := do
  let s ← get
  let token := s.current
  let newline := s.newlineBefore && (← read).newlinesMatter
  if token.isEof then
    return .done x.2
  else if x.1 = 0 && (token.kind.isCloser
      || (x.2 && point.syncsAt token newline)) then
    return .done x.2
  else
    discard advance
    return .again (depthAfter token x.1, true)

/-- **The loop to the delimiter of a tolerant point.** -/
def skipToLoop (point : TolerantPoint) : Loop (Nat × Bool) Bool :=
  .ofAction (skipToTurn point) (fun turns x => skipTo point turns x.1 x.2)
    (fun turns x => by
    simp only [skipTo, skipToTurn, bind_assoc, Turn.ite_followedBy,
      Turn.again_followedBy, Turn.done_followedBy])

/-- One turn of `skipStatement`. -/
def skipStatementTurn (x : Nat × Bool) :
    Action (Turn (Nat × Bool) Unit) := do
  let s ← get
  let ctx ← read
  let token := s.current
  if s.aborted || token.isEof then
    return .done ()
  else if x.1 = 0 && x.2
      && endsStatement ctx.listEnd s.newlineBefore token then
    return .done ()
  else
    discard advance
    let depth := depthAfter token x.1
    if depth = 0 && token.isPunctuator .semicolon then
      return .done ()
    else
      return .again (depth, true)

/-- **The loop to the end of a statement.** -/
def skipStatementLoop : Loop (Nat × Bool) Unit :=
  .ofAction skipStatementTurn (fun turns x => skipStatement turns x.1 x.2)
    (fun turns x => by
    simp only [skipStatement, skipStatementTurn, bind_assoc,
      Turn.ite_followedBy, Turn.again_followedBy, Turn.done_followedBy])

/-! ## Lists -/

section Items

variable {α : Type} [Mendable α] (point : TolerantPoint)
  (closer : Punctuator) (item : Parse α)

/-- One turn of `separatedFrom`. -/
def separatedTurn (found : List α) : Parse (Turn (List α) (List α)) := do
  if ← atPunctuator closer then return .done found.reverse
  else
    let x ← tolerant point item
    if ← eat .comma then return .again (x :: found)
    else if ← atPunctuator closer then return .again (x :: found)
    else if Mendable.isError x then
      discard (eat .comma)
      return .again (x :: found)
    else
      let skipped ← missingSeparator point
        (inQuotes "," ++ " or " ++ inQuotes closer.spelling)
      discard (eat .comma)
      return .again (skipped :: x :: found)

/-- **The loop over items with commas between them.** -/
def separatedLoop : Loop (List α) (List α) where
  turn := separatedTurn point closer item
  run := separatedFrom point closer item
  run_succ turns found := by
    simp only [separatedTurn, separatedFrom, bind_assoc, Turn.ite_followedBy,
      Turn.again_followedBy, Turn.done_followedBy]

end Items

/-- One turn of `specifiersFrom`. -/
def specifiersTurn {α : Type} (item : Parse α) (found : List α) :
    Parse (Turn (List α) (List α)) := do
  if ← atPunctuator .rBrace then return .done found.reverse
  else
    let x ← item
    if ← eat .comma then return .again (x :: found)
    else return .done (x :: found).reverse

/-- **The loop over the names of an import or export list.** -/
def specifiersLoop {α : Type} (item : Parse α) : Loop (List α) (List α) where
  turn := specifiersTurn item
  run := specifiersFrom item
  run_succ turns found := by
    simp only [specifiersTurn, specifiersFrom, bind_assoc, Turn.ite_followedBy,
      Turn.again_followedBy, Turn.done_followedBy]

/-- One turn of `parameterNamesFrom`. -/
def parameterNamesTurn (found : List Identifier) :
    Parse (Turn (List Identifier) (List Identifier)) := do
  let id ← identifier
  if ← eat .comma then return .again (id :: found)
  else return .done (id :: found).reverse

/-- **The loop over the parameters of a function.** -/
def parameterNamesLoop : Loop (List Identifier) (List Identifier) where
  turn := parameterNamesTurn
  run := parameterNamesFrom
  run_succ turns found := by
    simp only [parameterNamesTurn, parameterNamesFrom, bind_assoc,
      Turn.ite_followedBy, Turn.again_followedBy, Turn.done_followedBy]

/-! ## What the grammar reaches deeper through -/

variable (g : Grammar)

/-- One turn of `classMethodsFrom`. -/
def classMethodsTurn (found : List Method) :
    Parse (Turn (List Method) (List Method)) := do
  let token ← current
  if token.isPunctuator .rBrace || token.isEof then
    return .done found.reverse
  else
    let start ← here
    let isStatic ← modifier "static"
    let m ← method g isStatic start
    discard (eat .semicolon)
    return .again (m :: found)

/-- **The loop over the methods of a class.** -/
def classMethodsLoop : Loop (List Method) (List Method) where
  turn := classMethodsTurn g
  run := classMethodsFrom g
  run_succ turns found := by
    simp only [classMethodsTurn, classMethodsFrom, bind_assoc,
      Turn.ite_followedBy, Turn.again_followedBy, Turn.done_followedBy]

/-- One turn of `bindingsFrom`. -/
def bindingsTurn (found : List Declarator) :
    Parse (Turn (List Declarator) (List Declarator)) := do
  let d ← tolerant .varBinding (binding g)
  if ← anotherBinding (Mendable.isError d) then return .again (d :: found)
  else return .done (d :: found).reverse

/-- **The loop over the bindings of a declaration.** -/
def bindingsLoop : Loop (List Declarator) (List Declarator) where
  turn := bindingsTurn g
  run := bindingsFrom g
  run_succ turns found := by
    simp only [bindingsTurn, bindingsFrom, bind_assoc, Turn.ite_followedBy,
      Turn.again_followedBy, Turn.done_followedBy]

/-- One turn of `switchCasesFrom`. -/
def switchCasesTurn (found : List SwitchCase) :
    Parse (Turn (List SwitchCase) (List SwitchCase)) := do
  if ← atPunctuator .rBrace then return .done found.reverse
  else return .again ((← switchCase g) :: found)

/-- **The loop over the clauses of a switch.** -/
def switchCasesLoop : Loop (List SwitchCase) (List SwitchCase) where
  turn := switchCasesTurn g
  run := switchCasesFrom g
  run_succ turns found := by
    simp only [switchCasesTurn, switchCasesFrom, bind_assoc,
      Turn.ite_followedBy, Turn.again_followedBy, Turn.done_followedBy]

/-- One turn of `foldOperators`. -/
def operatorTurn (min : Precedence) (left : Expression) :
    Parse (Turn Expression Expression) := do
  match ← operatorAt? min with
  | some info => return .again (← applyOperator g left info)
  | none => return .done left

/-- **The loop over the operators behind an operand.** -/
def operatorLoop (min : Precedence) : Loop Expression Expression where
  turn := operatorTurn g min
  run := foldOperators g min
  run_succ turns left := by
    unfold operatorTurn
    rw [foldOperators, bind_assoc]
    congr 1
    funext info?
    cases info? <;>
      simp only [bind_assoc, Turn.again_followedBy, Turn.done_followedBy]

/-- One turn of `statementsFrom`. -/
def statementsTurn (found : List Statement) :
    Action (Turn (List Statement) (List Statement)) := do
  if (← get).aborted || (← atListEnd) then
    return .done found.reverse
  else
    let start ← here
    match ← attempt (statement g) with
    | .ok s => return .again (s :: found)
    | .error error =>
      match ← abandon start error with
      | some s => return .again (s :: found)
      | none => return .again found

/-- **The loop over the statements of a list.** -/
def statementsLoop : Loop (List Statement) (List Statement) :=
  .ofAction (statementsTurn g) (statementsFrom g) (fun turns found => by
    unfold statementsTurn
    rw [statementsFrom]
    simp only [bind_assoc, Turn.ite_followedBy, Turn.done_followedBy]
    -- What follows a statement depends on whether it was read.
    refine bind_congr (fun _ => bind_congr (fun _ => ?_))
    refine ite_congr rfl (fun _ => rfl) (fun _ => ?_)
    refine bind_congr (fun start => bind_congr (fun r => ?_))
    cases r with
    | ok _ => rfl
    | error error =>
      simp only [bind_assoc]
      refine bind_congr (fun x? => ?_)
      cases x? <;> rfl)

end ScriptTree.Parse
