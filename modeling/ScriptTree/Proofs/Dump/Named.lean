import ScriptTree.Proofs.Dump.Shown
import ScriptTree.Proofs.Tree.Place

/-!
# Where only the places are lost

Of a tree in which every function that runs on the side has a name, its dump
shows all but where the parts stand (`Node.IsNamed`). What is told of such a
tree is the tree with all its places taken for one
(`Program.IsNamed.shown_eq_move`).
-/

namespace ScriptTree

/-- **A function that is not mistaken for another one**: if it runs on the
side it has a name. -/
def Function.IsNamed (f : Function) : Prop :=
  f.isAsync = true → f.id?.isSome = true

/-- A node that is not mistaken for another one. -/
def Node.IsNamed : Node → Prop
  | function f => f.IsNamed
  | _ => True

instance Function.instDecidableIsNamed (f : Function) :
    Decidable f.IsNamed :=
  inferInstanceAs (Decidable (_ → _))

instance Node.instDecidableIsNamed : ∀ n : Node, Decidable n.IsNamed
  | function f => inferInstanceAs (Decidable f.IsNamed)
  | program _ | statement _ | block _ | declaration _ | expression _
  | classDef _ | method _ | identifier _ | literal _ | error _ =>
    inferInstanceAs (Decidable True)

/-- **A script in which no function is mistaken for another one.** -/
def Program.IsNamed (p : Program) : Prop :=
  (Node.program p).Everywhere Node.IsNamed

instance Program.instDecidableIsNamed (p : Program) :
    Decidable p.IsNamed :=
  inferInstanceAs (Decidable (∀ n ∈ (Node.program p).all, n.IsNamed))

/-- **A node of which only its place is lost.** -/
def Node.LosesPlace : Node → Prop
  | statement s => s.shown = s.move nowhere
  | block b => b.shown = b.move nowhere
  | declaration d => d.shown = d.move nowhere
  | expression e => e.shown = e.move nowhere
  | function f => f.shown = f.move nowhere
  | classDef c => c.shown = c.move nowhere
  | method m => m.shown = m.move nowhere
  | program _ | identifier _ | literal _ | error _ => True

/-! ## Parts side by side -/

/-- A list of expressions loses its places if each of them does. -/
theorem shownExpressions_eq_move {es : List Expression}
    (h : ∀ e ∈ es, e.shown = e.move nowhere) :
    shownExpressions es = moveExpressions nowhere es := by
  rw [shownExpressions_eq, moveExpressions_eq]
  exact List.map_congr_left h

/-- So does a list of statements. -/
theorem shownStatements_eq_move {ss : List Statement}
    (h : ∀ s ∈ ss, s.shown = s.move nowhere) :
    shownStatements ss = moveStatements nowhere ss := by
  rw [shownStatements_eq, moveStatements_eq]
  exact List.map_congr_left h

/-- An expression that may be missing loses its place if it is there. -/
theorem shownExpression?_eq_move {e? : Option Expression}
    (h : ∀ e ∈ e?.toList, e.shown = e.move nowhere) :
    shownExpression? e? = moveExpression? nowhere e? := by
  cases e? with
  | none => rfl
  | some e => exact congrArg some (h e (by simp))

/-! ## Expressions -/

/-- The body of an arrow function. -/
theorem ArrowBody.losesPlace (b : ArrowBody) (ih : b.part.LosesPlace) :
    b.shown = b.move nowhere := by
  cases b with
  | expression e => exact congrArg expression ih
  | block b => exact congrArg block ih

/-- A member of an object, by its parts. -/
theorem ObjectMember.losesPlace (m : ObjectMember)
    (ih : ∀ n ∈ m.parts, n.LosesPlace) :
    m.shown = m.move nowhere := by
  cases m with
  | pair key value span =>
    simp only [parts, List.forall_mem_cons, Node.LosesPlace] at ih
    rw [shown, move, ih.2.1]
    rfl
  | method m => exact congrArg method (ih _ List.mem_cons_self)
  | error e => rfl

/-- **Each kind of expression** loses its place if its parts do. -/
theorem Expression.losesPlace (e : Expression)
    (ih : ∀ n ∈ e.children, n.LosesPlace) :
    e.shown = e.move nowhere := by
  cases e
  all_goals
    simp only [children, List.forall_mem_cons, List.forall_mem_append,
      List.forall_mem_map, List.forall_mem_flatMap, Node.LosesPlace] at ih
  case object members span =>
    rw [shown, move, shownMembers_eq, moveMembers_eq,
      List.map_congr_left fun m hm => m.losesPlace (ih m hm)]
    rfl
  case array elements span =>
    rw [shown, move, shownExpressions_eq_move ih]
    rfl
  case arrow isAsync params body span =>
    rw [shown, move, body.losesPlace ih.2.1]
    rfl
  case call callee arguments span =>
    rw [shown, move, ih.1, shownExpressions_eq_move ih.2]
    rfl
  all_goals simp_all [shown, move, Span.move, nowhere]

/-! ## Functions and classes -/

/-- **What is told of the name** of such a function. -/
theorem Function.IsNamed.headingShown_eq {f : Function} (h : f.IsNamed) :
    headingShown f.id? f.isAsync
      = (f.id?.map (.move nowhere), f.isAsync) := by
  obtain ⟨id?, params, body, isAsync, span⟩ := f
  cases id? <;> cases isAsync
  · rfl
  · exact nomatch h rfl
  · rfl
  · rfl

/-- **A function** does so only if its heading is shown as it is. -/
theorem Function.losesPlace (f : Function) (hnamed : f.IsNamed)
    (ih : ∀ n ∈ (Node.function f).children, n.LosesPlace) :
    f.shown = f.move nowhere := by
  have hheading := hnamed.headingShown_eq
  obtain ⟨id?, params, body, isAsync, span⟩ := f
  simp only [Node.children, List.forall_mem_append,
    List.forall_mem_singleton, Node.LosesPlace] at ih
  rw [shown, move, hheading, ih.2]
  rfl

/-- A method, whose heading is always shown as it is. -/
theorem Method.losesPlace (m : Method)
    (ih : ∀ n ∈ (Node.method m).children, n.LosesPlace) :
    m.shown = m.move nowhere := by
  obtain ⟨isStatic, isAsync, kind, key, params, body, span⟩ := m
  simp only [Node.children, List.forall_mem_cons, List.forall_mem_append,
    Node.LosesPlace] at ih
  rw [shown, move, ih.2.2.1]
  rfl

/-- A class, with its parent and its methods. -/
theorem Class.losesPlace (c : Class)
    (ih : ∀ n ∈ (Node.classDef c).children, n.LosesPlace) :
    c.shown = c.move nowhere := by
  obtain ⟨id?, parent?, methods, span⟩ := c
  simp only [Node.children, List.forall_mem_append, List.forall_mem_map,
    Node.LosesPlace] at ih
  rw [shown, move, shownExpression?_eq_move ih.1.2, shownMethods_eq,
    moveMethods_eq, List.map_congr_left ih.2]
  rfl

/-- A block, statement by statement. -/
theorem Block.losesPlace (b : Block)
    (ih : ∀ n ∈ (Node.block b).children, n.LosesPlace) :
    b.shown = b.move nowhere := by
  obtain ⟨body, span⟩ := b
  simp only [Node.children, List.forall_mem_map, Node.LosesPlace] at ih
  rw [shown, move, shownStatements_eq_move ih]
  rfl

/-! ## Statements -/

/-- One binding, with or without its first value. -/
theorem Declarator.losesPlace (d : Declarator)
    (ih : ∀ n ∈ d.parts, n.LosesPlace) :
    d.shown = d.move nowhere := by
  cases d with
  | binding id init? span =>
    simp only [parts, List.forall_mem_cons, List.forall_mem_map,
      Node.LosesPlace] at ih
    rw [shown, move, shownExpression?_eq_move ih.2]
    rfl
  | error e => rfl

/-- A declaration, binding by binding. -/
theorem VariableDeclaration.losesPlace (d : VariableDeclaration)
    (ih : ∀ n ∈ (Node.declaration d).children, n.LosesPlace) :
    d.shown = d.move nowhere := by
  obtain ⟨kind, declarators, span⟩ := d
  simp only [Node.children, List.forall_mem_flatMap] at ih
  rw [shown, move, shownDeclarators_eq, moveDeclarators_eq,
    List.map_congr_left fun d hd => d.losesPlace (ih d hd)]
  rfl

/-- A clause of a switch. -/
theorem SwitchCase.losesPlace (c : SwitchCase)
    (ih : ∀ n ∈ c.parts, n.LosesPlace) :
    c.shown = c.move nowhere := by
  obtain ⟨test?, consequent, span⟩ := c
  simp only [parts, List.forall_mem_append, List.forall_mem_map,
    Node.LosesPlace] at ih
  rw [shown, move, shownExpression?_eq_move ih.1,
    shownStatements_eq_move ih.2]
  rfl

theorem ForInit.losesPlace (i : ForInit) (ih : i.part.LosesPlace) :
    i.shown = i.move nowhere := by
  cases i with
  | declaration d => exact congrArg declaration ih
  | expression e => exact congrArg expression ih

/-- What is done about an exception. -/
theorem CatchClause.losesPlace (c : CatchClause)
    (ih : ∀ n ∈ c.parts, n.LosesPlace) :
    c.shown = c.move nowhere := by
  obtain ⟨param?, body, span⟩ := c
  simp only [parts, List.forall_mem_append, List.forall_mem_singleton,
    Node.LosesPlace] at ih
  rw [shown, move, ih.2]
  rfl

/-- Each kind of export, by what it names. -/
theorem Export.losesPlace (e : Export)
    (ih : ∀ n ∈ e.parts, n.LosesPlace) :
    e.shown = e.move nowhere := by
  cases e with
  | all | named => rfl
  | declaration e => exact congrArg declaration (ih _ List.mem_cons_self)
  | default e => exact congrArg «default» (ih _ List.mem_cons_self)
  | bindings d => exact congrArg bindings (ih _ List.mem_cons_self)

/-- **Each kind of statement** loses its place if its parts do. -/
theorem Statement.losesPlace (s : Statement)
    (ih : ∀ n ∈ s.children, n.LosesPlace) :
    s.shown = s.move nowhere := by
  cases s
  all_goals
    simp only [children, List.forall_mem_cons, List.forall_mem_append,
      List.forall_mem_map, List.forall_mem_flatMap, Node.LosesPlace] at ih
  case conditional test consequent alternate? span =>
    obtain ⟨htest, hconsequent, halternate⟩ := ih
    rw [shown, move, htest, hconsequent]
    cases alternate? with
    | none => rfl
    | some s =>
      rw [shownStatement?, halternate s (by simp)]
      rfl
  case switch discriminant cases span =>
    rw [shown, move, ih.1, shownCases_eq, moveCases_eq,
      List.map_congr_left fun c hc => c.losesPlace (ih.2 c hc)]
    rfl
  case forLoop init? test? update? body span =>
    obtain ⟨⟨⟨hinit, htest⟩, hupdate⟩, hbody⟩ := ih
    have hinit : shownInit? init? = moveInit? nowhere init? := by
      cases init? with
      | none => rfl
      | some i => exact congrArg some (i.losesPlace (hinit i (by simp)))
    rw [shown, move, hinit, shownExpression?_eq_move htest,
      shownExpression?_eq_move hupdate, hbody.1]
    rfl
  case tryBlock body handler? finalizer? span =>
    obtain ⟨hbody, hhandler, hfinalizer⟩ := ih
    have hhandler :
        shownHandler? handler? = moveHandler? nowhere handler? := by
      cases handler? with
      | none => rfl
      | some c => exact congrArg some (c.losesPlace hhandler)
    have hfinalizer :
        shownBlock? finalizer? = moveBlock? nowhere finalizer? := by
      cases finalizer? with
      | none => rfl
      | some b => exact congrArg some (hfinalizer b (by simp))
    rw [shown, move, hbody, hhandler, hfinalizer]
    rfl
  case returnValue argument? span | yieldValue argument? span =>
    rw [shown, move, shownExpression?_eq_move ih]
    rfl
  case exportNames e span =>
    rw [shown, move, e.losesPlace ih]
    rfl
  all_goals simp_all [shown, move, Span.move, nowhere]

/-! ## Whole trees -/

/-- **Of every node of such a tree** only its place is lost. -/
theorem Node.losesPlace {n : Node} (h : n.Everywhere IsNamed) :
    n.LosesPlace := by
  induction hsize : sizeOf n using Nat.strongRecOn generalizing n with
  | _ k ih =>
    have hbelow : ∀ c ∈ n.children, c.LosesPlace := fun c hc =>
      ih _ (hsize ▸ sizeOf_child_lt hc)
        (fun m hm => h m (mem_all_iff.2 (.inr ⟨c, hc, hm⟩))) rfl
    cases n with
    | statement s => exact s.losesPlace hbelow
    | block b => exact b.losesPlace hbelow
    | declaration d => exact d.losesPlace hbelow
    | expression e => exact e.losesPlace hbelow
    | function f => exact f.losesPlace (h _ (mem_all_self _)) hbelow
    | classDef c => exact c.losesPlace hbelow
    | method m => exact m.losesPlace hbelow
    | program | identifier | literal | error => trivial

/-- **Of the statements of such a script** only the places are lost. -/
theorem Program.IsNamed.shown_eq_move {p : Program} (h : p.IsNamed) :
    p.body.map Statement.shown = p.body.map (.move nowhere) :=
  List.map_congr_left fun s hs => Node.losesPlace (n := .statement s)
    fun m hm => h m (Node.mem_all_iff.2
      (.inr ⟨_, List.mem_map_of_mem hs, hm⟩))

end ScriptTree
