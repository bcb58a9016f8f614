import ScriptTree.Proofs.Chain.Script
import ScriptTree.Proofs.Words.Array

/-!
# A script that is an array of words

A script of nothing but an array is one statement, whatever its items are:
each item becomes its elements, and each item that is no expression adds one
problem (`parseWith_array`). So if a single item is broken, the others are
the elements they are by themselves, and the error node for it ends where it
ends (`parseWith_array_broken`).
-/

namespace ScriptTree

open Word Parse

/-! ## The words of an array -/

namespace Word

variable {n m : Nat} {item : List Word} {items : List (List Word)}

theorem IsItem.mono (h : IsItem n item) (hle : item.length < m) :
    IsItem m item :=
  { h with length_lt := hle }

/-- **There are more words than items**, and than words in an item. -/
theorem length_inside (h : ∀ item ∈ items, item ≠ []) :
    items.length < (inside items).length
      ∧ ∀ item ∈ items, item.length < (inside items).length := by
  induction items with
  | nil => exact ⟨Nat.one_pos, nofun⟩
  | cons item items ih =>
    obtain ⟨hitem, hitems⟩ := List.forall_mem_cons.1 h
    obtain ⟨hcount, hlength⟩ := ih hitems
    have hpos := List.length_pos_iff.2 hitem
    have hbehind : (inside items).length ≤ (behindItem items).length := by
      cases items with
      | nil => exact Nat.le_refl _
      | cons => exact Nat.le_succ _
    rw [inside_cons, List.length_append]
    refine ⟨by rw [List.length_cons]; omega, List.forall_mem_cons.2
      ⟨by omega, fun other hother => ?_⟩⟩
    have hlt := hlength other hother
    omega

/-- The text of some words ends a space before the next would begin. -/
theorem byteLength_line {w : Word} {ws : List Word} :
    byteLength (line (w :: ws)) + 1 = width (w :: ws) := by
  rw [line_cons, byteLength_append, width_cons, width]
  omega

end Word

/-! ## The parse of it -/

/-- **What reads an array** of items up to the end of the text. -/
def Parse.ReadsArray (p : Parse Expression) (ctx : Context) (s : State)
    (found : Array Diagnostic) (start : Nat) (items : List (List Word)) :
    Prop :=
  ∃ xs span t, ∃ ds : List Diagnostic, p ctx s = (.ok (.array xs span), t)
    ∧ (∃ stop, t.AtWords (found ++ ds.toArray) stop [])
    ∧ YieldsAll (start + width [opening]) items xs ds

namespace Parse

open ScriptTree.Action

variable {n k : Nat} {ctx : Context} {s t : State}
  {found : Array Diagnostic} {start stop : Nat} {min : Precedence}
  {items : List (List Word)}

/-- At the end of the text no operator is next. -/
theorem operator?_of_eof (h : s.current.kind = .eof) :
    s.operator? ctx min = none := by
  refine Option.eq_none_iff_forall_ne_some.2 fun info hinfo => ?_
  obtain ⟨-, -, hafter, -⟩ := State.operator?_eq_some_iff.1 hinfo
  rw [h] at hafter
  exact nomatch hafter

variable (htable : ctx.table = .standard)
  (htolerant : ctx.options.tolerant = true) (hle : n ≤ k)
  (hturns : n < ctx.turns) (hitems : ∀ item ∈ items, IsItem n item)
  (hcount : items.length ≤ ctx.turns)
  (hmax : found.size + countBroken items ≤ ctx.options.maxDiagnostics)

include htable htolerant hle hturns hitems hcount hmax

/-- **The elements in brackets.** -/
theorem arrayLiteral_readsArray (hs : s.AtWords found start (array items)) :
    ReadsArray (arrayLiteral (Grammar.levels (k + 1))) ctx s found start
      items := by
  have hg : (Grammar.levels k).ReadsFronts n :=
    fun min h => Grammar.levels_readsFronts k min (Nat.lt_of_lt_of_le h hle)
  have hbump : (s.bump ctx).enter.AtItems found (start + width [opening])
      items :=
    ⟨_, fun _ => rfl, (hs.bump ctx).enter⟩
  obtain ⟨xs, t, ds, hrun, ⟨stop, ht⟩, hall⟩ := separatedFrom_run hg
    (show ctx.inBrackets.table = .standard from htable) htolerant hturns []
    hitems hcount hmax hbump
  have helements : (Grammar.levels (k + 1)).elements ctx (s.bump ctx)
      = (.ok xs, t.leave) := by
    have hbrackets : (withReader Context.inBrackets
        (fun ctx => arrayElements (Grammar.levels k) ctx)
          : Parse (List Expression)) ctx (s.bump ctx).enter = (.ok xs, t) :=
      hrun
    show inBrackets (fun ctx => arrayElements (Grammar.levels k) ctx) ctx
      (s.bump ctx) = _
    rw [inBrackets, guarded_run, hbrackets]
  have hopening : s.current.isPunctuator .lBracket = true :=
    decide_eq_true hs.kind_eq
  have hclosing : t.leave.current.isPunctuator .rBracket = true :=
    decide_eq_true ht.kind_eq
  refine ⟨xs, (t.leave.bump ctx).spanFrom s.here, t.leave.bump ctx, ds, ?_,
    ⟨_, ht.leave.bump ctx⟩, hall⟩
  unfold arrayLiteral
  rw [bind_run, expectPunctuator_run, if_pos hopening]
  dsimp only
  rw [bind_run, helements]
  dsimp only
  have hdiscard : (discard (expectPunctuator .rBracket) : Parse Unit) ctx
      t.leave = (.ok (), t.leave.bump ctx) :=
    discard_run (by rw [expectPunctuator_run, if_pos hclosing])
  rw [bind_run, hdiscard]
  rfl

/-- **An array is an operand** with nothing behind it. -/
theorem expressionFrom_readsArray (min : Precedence)
    (hs : s.AtWords found start (array items)) :
    ReadsArray (expressionFrom (Grammar.levels (k + 1)) min) ctx s found
      start items := by
  obtain ⟨xs, span, t, ds, hrun, ⟨stop, ht⟩, hall⟩ := arrayLiteral_readsArray
    htable htolerant hle hturns hitems hcount hmax hs
  have hkind : s.current.kind = .punctuator .lBracket := hs.kind_eq
  have hoperand : operand (Grammar.levels (k + 1)) ctx s
      = (.ok (.array xs span), t) := by
    rw [operand_eq_primary (by rw [htable, hkind]; rfl), primary, bind_run,
      liftM_current_run]
    dsimp only
    rw [hkind]
    exact hrun
  refine ⟨xs, span, t, ds, ?_, ⟨stop, ht⟩, hall⟩
  have hfold (turns : Nat) : foldOperators (Grammar.levels (k + 1)) min turns
      (.array xs span) ctx t = (.ok (.array xs span), t) := by
    cases turns with
    | zero => rfl
    | succ turns =>
      rw [foldOperators, bind_run, liftM_operatorAt?_run,
        operator?_of_eof ht.kind_eq]
      rfl
  unfold expressionFrom
  rw [bind_run, hoperand]
  exact hfold ctx.turns

/-- **An array is a statement.** -/
theorem statement_readsArray
    (htrailing : ctx.options.allowTrailingStatement = true)
    (hs : s.AtWords found start (array items)) :
    ∃ xs span span' t, ∃ ds : List Diagnostic,
      statement (Grammar.levels (k + 3)) ctx s
        = (.ok (.expression (.array xs span) span'), t)
      ∧ (∃ stop, t.AtWords (found ++ ds.toArray) stop [])
      ∧ YieldsAll (start + width [opening]) items xs ds := by
  let event := Event.statement s.current.span.start s.current.kind
  let u : State := { s with events := s.events.push event }
  have hu : u.enter.enter.AtWords found start (array items) := { hs with }
  obtain ⟨xs, span, t, ds, hrun, ⟨stop, ht⟩, hall⟩ := expressionFrom_readsArray
    htable htolerant hle hturns hitems hcount hmax .lowest hu
  have hexpression : expression (Grammar.levels (k + 2)) ctx u.enter
      = (.ok (.array xs span), t.leave) := by
    show guarded (fun ctx => expressionFrom (Grammar.levels (k + 1)) .lowest
      ctx) ctx u.enter = _
    rw [guarded_run]
    rw [show expressionFrom (Grammar.levels (k + 1)) .lowest ctx
      u.enter.enter = _ from hrun]
  have hkind : u.enter.current.kind = .punctuator .lBracket := hu.kind_eq
  refine ⟨xs, span, t.leave.spanFrom u.enter.current.span.start,
    t.leave.leave, ds, ?_, ⟨stop, ht.leave.leave⟩, hall⟩
  rw [statement_levels_succ, guarded_run,
    statementFrom_run (hkind ▸ nofun) (hkind ▸ nofun) (hkind ▸ nofun),
    expressionStatement_run hexpression rfl rfl ht.newlineBefore_eq
      ht.kind_eq htrailing]

end Parse

/-! ## The script -/

section Script

variable {options : Options} {n : Nat} {items : List (List Word)}

/-- **Every item of an array stands for itself.** A script that is an array
of items has one statement, the array of what the items become, and its
problems are those of the items that are no expressions. -/
theorem parseWith_array (htolerant : options.tolerant = true)
    (htrailing : options.allowTrailingStatement = true)
    (hdepth : n + 3 ≤ options.maxNestingDepth)
    (hitems : ∀ item ∈ items, IsItem n item)
    (hmax : countBroken items ≤ options.maxDiagnostics) :
    ∃ xs span span',
      (parseWith options .standard (line (array items))).program.body
        = [.expression (.array xs span) span']
      ∧ YieldsAll (width [opening]) items xs
        (parseWith options .standard (line (array items))).diagnostics := by
  let ctx := Context.ofSource (line (array items)) options .standard
  have hs : (State.initial ctx).AtWords #[] 0 (array items) :=
    State.initial_atWords _ options .standard
  obtain ⟨hcount, hlength⟩ :=
    length_inside fun item h => (hitems item h).ne_nil
  have hturns : (inside items).length < ctx.turns := by
    have hwords := length_le_width (array items)
    rw [array, ← byteLength_line] at hwords
    exact hwords
  obtain ⟨k, hk⟩ : ∃ k, options.maxNestingDepth = k + 3 :=
    ⟨options.maxNestingDepth - 3, by omega⟩
  have hitems' : ∀ item ∈ items,
      IsItem (min k (inside items).length) item := fun item h =>
    (hitems item h).mono (Nat.lt_min.2
      ⟨Nat.lt_of_lt_of_le (hitems item h).length_lt (by omega),
        hlength item h⟩)
  obtain ⟨xs, span, span', t, ds, hrun, ⟨stop, ht⟩, hall⟩ :=
    statement_readsArray
      (show (ctx.inList .eof).table = .standard from rfl) htolerant
      (Nat.min_le_left k _)
      (Nat.lt_of_le_of_lt (Nat.min_le_right _ _) hturns) hitems'
      (Nat.le_of_lt (Nat.lt_trans hcount hturns))
      (by rw [Array.size_empty, Nat.zero_add]; exact hmax) htrailing hs
  have hlist : statementList (Grammar.levels options.maxNestingDepth) .eof ctx
      (State.initial ctx) = ([.expression (.array xs span) span'], t) := by
    rw [hk]
    exact statementList_run hs.aborted_eq hs.isEof_eq hrun ht.isEof_eq
      (Nat.lt_of_le_of_lt (Nat.zero_lt_of_lt hcount) hturns)
  obtain ⟨hbody, hdiagnostics⟩ := parseWith_of_statementList hs.isEof_eq hlist
  refine ⟨xs, span, span', hbody, ?_⟩
  rw [hdiagnostics, ht.diagnostics_eq, Array.empty_append]
  exact Nat.zero_add (width [opening]) ▸ hall

/-! ## One broken item -/

/-- **The elements that operands become**, one after the other. -/
def Word.operands : Nat → List Word → List Expression
  | _, [] => []
  | start, w :: ws =>
    w.operand start :: operands (start + width [w] + width [comma]) ws

variable {start : Nat} {item : List Word} {ws : List Word}
  {xs : List Expression} {ds : List Diagnostic}

theorem Word.Yields.of_closes (h : Yields start item xs ds)
    (hcloses : closes true item = true) :
    ∃ e, xs = [e] ∧ ds = [] ∧ e.MadeOf start item := by
  cases h with
  | whole h made => exact ⟨_, rfl, rfl, made⟩
  | broken h => exact absurd (hcloses.symm.trans h) nofun

theorem Word.Yields.of_not_closes (h : Yields start item xs ds)
    (hbroken : closes true item = false) :
    ∃ front rest made node d, item = front ++ rest ∧ rest ≠ []
      ∧ xs = made ++ [.error node] ∧ ds = [d]
      ∧ Begins start front made
      ∧ node.span = ⟨start + width front, start + width item - 1⟩
      ∧ d.IsMended := by
  cases h with
  | whole h => exact absurd (hbroken.symm.trans h) nofun
  | broken h ne_nil begins span_eq isMended =>
    exact ⟨_, _, _, _, _, rfl, ne_nil, rfl, rfl, begins, span_eq, isMended⟩

/-- What becomes of items in a row becomes of those in front and of those
behind them. -/
theorem Word.YieldsAll.of_append {front back : List (List Word)}
    (h : YieldsAll start (front ++ back) xs ds) :
    ∃ xs₁ xs₂ ds₁ ds₂, xs = xs₁ ++ xs₂ ∧ ds = ds₁ ++ ds₂
      ∧ YieldsAll start front xs₁ ds₁
      ∧ YieldsAll (start + width (front.flatMap (· ++ [comma]))) back xs₂
        ds₂ := by
  induction front generalizing start xs ds with
  | nil => exact ⟨[], xs, [], ds, rfl, rfl, .nil, h⟩
  | cons item front ih =>
    cases h with
    | cons first others =>
      obtain ⟨xs₁, xs₂, ds₁, ds₂, rfl, rfl, hfront, hback⟩ := ih others
      refine ⟨_, xs₂, _, ds₂, (List.append_assoc ..).symm,
        (List.append_assoc ..).symm, .cons first hfront, ?_⟩
      rwa [List.flatMap_cons, width_append, width_append, ← Nat.add_assoc,
        ← Nat.add_assoc]

/-- **An operand becomes itself.** -/
theorem Word.YieldsAll.eq_operands (hws : ∀ w ∈ ws, w.isOperand = true)
    (h : YieldsAll start (ws.map ([·])) xs ds) :
    xs = operands start ws ∧ ds = [] := by
  induction ws generalizing start xs ds with
  | nil =>
    cases h
    exact ⟨rfl, rfl⟩
  | cons w ws ih =>
    obtain ⟨hw, hws⟩ := List.forall_mem_cons.1 hws
    have hcloses : closes true [w] = true := closes_operand hw
    cases h with
    | cons first others =>
      obtain ⟨e, rfl, rfl, he⟩ := first.of_closes hcloses
      obtain ⟨rfl, rfl⟩ := ih hws others
      rw [he.eq_operand]
      exact ⟨rfl, rfl⟩

theorem Word.countBroken_append {front back : List (List Word)} :
    countBroken (front ++ back) = countBroken front + countBroken back := by
  induction front with
  | nil => exact (Nat.zero_add _).symm
  | cons item front ih =>
    rw [List.cons_append, countBroken, countBroken, ih, Nat.add_assoc]

/-- None of some operands is broken. -/
theorem Word.countBroken_operands (hws : ∀ w ∈ ws, w.isOperand = true) :
    countBroken (ws.map ([·])) = 0 := by
  induction ws with
  | nil => rfl
  | cons w ws ih =>
    obtain ⟨hw, hws⟩ := List.forall_mem_cons.1 hws
    rw [List.map_cons, countBroken, closes_operand hw, ih hws]
    rfl

/-- **One broken item among operands** is the only one that is mended. -/
theorem Word.YieldsAll.of_broken {before broken after : List Word}
    (hbefore : ∀ w ∈ before, w.isOperand = true)
    (hafter : ∀ w ∈ after, w.isOperand = true)
    (hbroken : closes true broken = false)
    (h : YieldsAll (width [opening])
      (before.map ([·]) ++ broken :: after.map ([·])) xs ds) :
    let ahead := opening :: before.flatMap ([·, comma])
    (∃ d, ds = [d] ∧ d.IsMended)
      ∧ ∃ front rest made node, broken = front ++ rest ∧ rest ≠ []
        ∧ xs = operands (width [opening]) before ++ made ++ .error node
          :: operands (width (ahead ++ broken ++ [comma])) after
        ∧ Begins (width ahead) front made
        ∧ node.span = ⟨width (ahead ++ front),
          byteLength (line (ahead ++ broken))⟩ := by
  intro ahead
  have hahead : width [opening]
      + width ((before.map ([·])).flatMap (· ++ [comma])) = width ahead := by
    rw [← width_append, List.flatMap_map]
    rfl
  have hstop : width ahead + width broken - 1
      = byteLength (line (ahead ++ broken)) := by
    rw [← width_append, List.cons_append, ← byteLength_line,
      Nat.add_sub_cancel]
  have hbehind : width ahead + width broken + width [comma]
      = width (ahead ++ broken ++ [comma]) := by
    rw [width_append, width_append]
  obtain ⟨xs₁, xs₂, ds₁, ds₂, rfl, rfl, hfront, hback⟩ := h.of_append
  obtain ⟨rfl, rfl⟩ := hfront.eq_operands hbefore
  rw [hahead] at hback
  cases hback with
  | cons first others =>
    obtain ⟨rfl, rfl⟩ := others.eq_operands hafter
    obtain ⟨front, rest, made, node, d, hitem, hrest, rfl, rfl, hbegins,
      hspan, hmended⟩ := first.of_not_closes hbroken
    refine ⟨⟨d, rfl, hmended⟩, front, rest, made, node, hitem, hrest, ?_,
      hbegins, ?_⟩
    · rw [← hbehind]
      simp
    · rw [hspan, hstop, width_append]

/-- **An item that is an expression** is parsed without a problem. -/
theorem parseWith_array_whole (htolerant : options.tolerant = true)
    (htrailing : options.allowTrailingStatement = true)
    (hdepth : n + 3 ≤ options.maxNestingDepth) (hitem : IsItem n item)
    (hcloses : closes true item = true) :
    (parseWith options .standard (line (array [item]))).diagnostics = [] := by
  have hcount : countBroken [item] = 0 := by
    rw [countBroken, hcloses]
    rfl
  obtain ⟨xs, -, -, -, hall⟩ := parseWith_array htolerant htrailing hdepth
    (List.forall_mem_singleton.2 hitem) (hcount ▸ Nat.zero_le _)
  generalize (parseWith options .standard
    (line (array [item]))).diagnostics = ds at hall
  cases hall with
  | cons first others =>
    obtain ⟨e, -, rfl, -⟩ := first.of_closes hcloses
    cases others
    rfl

/-- **A broken item does not disturb its neighbours.** If all items but one
are operands, and the one is no expression by itself, there is one problem,
which was mended. The operands are the elements they are anywhere; of the
other item there is one error node, which ends where the item ends, and in
front of it there is at most one expression, made of the front of the
item. -/
theorem parseWith_array_broken {depth : Nat} {before broken after : List Word}
    (hbefore : ∀ w ∈ before, w.isOperand = true)
    (hafter : ∀ w ∈ after, w.isOperand = true)
    (hpieces : ∀ w ∈ broken, w.isPiece = true) (hne : broken ≠ [])
    (hdepth : broken.length + 4 ≤ depth)
    (halone : (parseWith { Options.standard with maxNestingDepth := depth }
      .standard (line (array [broken]))).diagnostics ≠ []) :
    let ahead := opening :: before.flatMap ([·, comma])
    let outcome := parseWith
      { Options.standard with maxNestingDepth := depth } .standard
      (line (array (before.map ([·]) ++ broken :: after.map ([·]))))
    (∃ d, outcome.diagnostics = [d] ∧ d.kind = .recoverable
        ∧ d.severity = .error)
      ∧ ∃ front rest made node span span', broken = front ++ rest ∧ rest ≠ []
        ∧ outcome.program.body = [.expression (.array
          (operands (width [opening]) before ++ made ++ .error node
            :: operands (width (ahead ++ broken ++ [comma])) after)
          span) span']
        ∧ Begins (width ahead) front made
        ∧ node.span = ⟨width (ahead ++ front),
          byteLength (line (ahead ++ broken))⟩ := by
  have hfour : depth - 3 + 3 ≤ depth := by omega
  have hitem : IsItem (depth - 3) broken := ⟨by omega, hne, hpieces⟩
  have hoperand {ws : List Word} (hws : ∀ w ∈ ws, w.isOperand = true) :
      ∀ item ∈ ws.map ([·]), IsItem (depth - 3) item := by
    intro item h
    obtain ⟨w, hw, rfl⟩ := List.mem_map.1 h
    have hpos := List.length_pos_iff.2 hne
    refine ⟨show 1 < _ by omega, List.cons_ne_nil _ _, fun v hv => ?_⟩
    rw [List.mem_singleton.1 hv, isPiece, hws w hw, Bool.true_or]
  have hbroken : closes true broken = false :=
    Bool.eq_false_iff.2 fun hcloses =>
      halone (parseWith_array_whole rfl rfl hfour hitem hcloses)
  have hcount : countBroken
      (before.map ([·]) ++ broken :: after.map ([·])) = 1 := by
    rw [countBroken_append, countBroken, countBroken_operands hbefore,
      countBroken_operands hafter, hbroken]
    rfl
  obtain ⟨xs, span, span', hbody, hall⟩ := @parseWith_array
    { Options.standard with maxNestingDepth := depth } (depth - 3)
    (before.map ([·]) ++ broken :: after.map ([·])) rfl rfl hfour
    (List.forall_mem_append.2 ⟨hoperand hbefore,
      List.forall_mem_cons.2 ⟨hitem, hoperand hafter⟩⟩)
    (hcount ▸ show 1 ≤ 100 by decide)
  obtain ⟨hd, front, rest, made, node, hsplit, hrest, rfl, hbegins, hspan⟩ :=
    hall.of_broken hbefore hafter hbroken
  exact ⟨hd, front, rest, made, node, span, span', hsplit, hrest, hbody,
    hbegins, hspan⟩

/-- Two names where one would do, between a name and a number. -/
theorem parseWith_array_broken_names :
    let a : Word := .ofChar 'a' .identifier (by rintro (_ | _) <;> rfl) nofun
    let one : Word := .ofChar '1' .number (by rintro (_ | _) <;> rfl) nofun
    let parsed :=
      parseWith { Options.standard with maxNestingDepth := 6 } .standard
    (parsed "[ a a ]".toList).diagnostics ≠ []
      ∧ (∃ d, (parsed "[ a , a a , 1 ]".toList).diagnostics = [d]
        ∧ d.kind = .recoverable)
      ∧ ∃ made node span span',
        (parsed "[ a , a a , 1 ]".toList).program.body
          = [.expression (.array (a.operand 2 :: made
              ++ [.error node, one.operand 12]) span) span']
        ∧ made.length ≤ 1 ∧ node.span.stop = 9 := by
  intro a one parsed
  have halone : line (array [[a, a]]) = "[ a a ]".toList := rfl
  have htext : line (array ([a].map ([·]) ++ [a, a] :: [one].map ([·])))
      = "[ a , a a , 1 ]".toList := rfl
  have hproblem : (parsed "[ a a ]".toList).diagnostics ≠ [] :=
    fun h => absurd (congrArg List.length h) (by decide +kernel)
  obtain ⟨⟨d, hd, hkind, -⟩, front, rest, made, node, span, span', -, -, hbody,
    hbegins, hspan⟩ := @parseWith_array_broken 6 [a] [a, a] [one] (by decide)
      (by decide) (by decide) (List.cons_ne_nil _ _) (by decide)
      (halone ▸ hproblem)
  rw [htext] at hd hbody
  refine ⟨hproblem, ⟨d, hd, hkind⟩, made, node, span, span', hbody, ?_,
    congrArg Span.stop hspan⟩
  cases hbegins with
  | nothing => exact Nat.zero_le 1
  | expression => exact Nat.le_refl 1

end Script

end ScriptTree
