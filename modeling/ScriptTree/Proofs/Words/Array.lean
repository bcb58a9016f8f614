import ScriptTree.Proofs.Words.Mending

/-!
# The items of an array of words

An array is written with commas between its items. Each item becomes one
element or two, with at most one problem: an item that is an expression is
that expression; of another one either nothing is left but an error node, or
an expression made of the front of it and an error node for the rest. No
item has an effect on another.
-/

namespace ScriptTree

open Word Parse

/-! ## How an array is written -/

namespace Word

/-- A character that is a token by itself. -/
def ofChar (c : Char) (kind : TokenKind)
    (h : ∀ slashDivides, Lexeme.atFront slashDivides c [] = ⟨kind, 0, none⟩)
    (hkind : kind ≠ .comment) : Word :=
  ⟨kind, c, [], h, hkind⟩

/-- The mark between items. -/
def comma : Word :=
  .ofChar ',' (.punctuator .comma) (by rintro (_ | _) <;> rfl) nofun

/-- The bracket in front of the items. -/
def opening : Word :=
  .ofChar '[' (.punctuator .lBracket) (by rintro (_ | _) <;> rfl) nofun

/-- The bracket behind them. -/
def closing : Word :=
  .ofChar ']' (.punctuator .rBracket) (by rintro (_ | _) <;> rfl) nofun

/-- **Items with commas between them**, and the bracket behind them. -/
def inside (items : List (List Word)) : List Word :=
  [comma].intercalate items ++ [closing]

/-- **An array** of items. -/
def array (items : List (List Word)) : List Word := opening :: inside items

/-- **An item of fewer words than a bound**, each of them an operand or an
operator. -/
structure IsItem (n : Nat) (item : List Word) : Prop where
  /-- There are not too many. -/
  length_lt : item.length < n
  /-- There is one. -/
  ne_nil : item ≠ []
  /-- Each of them may be in an expression. -/
  isPiece : ∀ w ∈ item, w.isPiece = true

/-- What stands behind an item when others follow it. -/
def behindItem : List (List Word) → List Word
  | [] => [closing]
  | items => comma :: inside items

variable {n : Nat} {item : List Word} {items : List (List Word)}

theorem inside_cons : inside (item :: items) = item ++ behindItem items := by
  cases items with
  | nil => simp [inside, behindItem]
  | cons other items => simp [inside, behindItem, List.intercalate_cons_cons]

/-- **An item ends** with a comma or with the bracket. -/
theorem endsItem_behindItem (h : ∀ item ∈ items, IsItem n item) :
    EndsItem (behindItem items) := by
  refine ⟨?_, ?_⟩
  · cases items with
    | nil => exact .inr rfl
    | cons => exact .inl rfl
  · induction items with
    | nil => simp [behindItem, closing, ofChar, isPlain]
    | cons item items ih =>
      have hbehind := ih fun item' h' => h item' (List.mem_cons_of_mem item h')
      have hitem : ∀ w ∈ item, w.isPlain = true :=
        fun w hw =>
          isPlain_of_isPiece ((h item List.mem_cons_self).isPiece w hw)
      show ∀ w ∈ comma :: inside (item :: items), w.isPlain = true
      rw [inside_cons]
      exact List.forall_mem_cons.2
        ⟨rfl, List.forall_mem_append.2 ⟨hitem, hbehind⟩⟩

end Word

/-! ## What becomes of an item -/

/-- **What is made of the front of an item** that is no expression: one
expression, or nothing of no words. -/
inductive Word.Begins (start : Nat) : List Word → List Expression → Prop where
  /-- Nothing is made. -/
  | nothing : Begins start [] []
  /-- All of the words are in the expression. -/
  | expression {front : List Word} {e : Expression}
    (made : e.MadeOf start front) : Begins start front [e]

/-- **The elements an item becomes**, and the problems found in it. -/
inductive Word.Yields (start : Nat) :
    List Word → List Expression → List Diagnostic → Prop where
  /-- An item that is an expression is nothing else. -/
  | whole {item : List Word} {e : Expression} (h : closes true item = true)
    (made : e.MadeOf start item) : Yields start item [e] []
  /-- Of an item that is none, the front may be one, and the rest becomes
  an error node. -/
  | broken {front rest : List Word} {es : List Expression}
    {node : ErrorNode} {d : Diagnostic}
    (h : closes true (front ++ rest) = false) (ne_nil : rest ≠ [])
    (begins : Begins start front es)
    (span_eq : node.span
      = ⟨start + width front, start + width (front ++ rest) - 1⟩)
    (isMended : d.IsMended) :
    Yields start (front ++ rest) (es ++ [.error node]) [d]

/-- **The elements some items become**, the first of which is at an
offset, and the problems found in them. -/
inductive Word.YieldsAll : Nat → List (List Word) → List Expression →
    List Diagnostic → Prop where
  /-- No items. -/
  | nil {start : Nat} : YieldsAll start [] [] []
  /-- An item, and the others behind it. -/
  | cons {start : Nat} {item : List Word} {items : List (List Word)}
    {es es' : List Expression} {ds ds' : List Diagnostic}
    (first : Yields start item es ds)
    (others : YieldsAll (start + width item + width [comma]) items es' ds') :
    YieldsAll start (item :: items) (es ++ es') (ds ++ ds')

/-- How many of some items are no expressions. -/
def Word.countBroken : List (List Word) → Nat
  | [] => 0
  | item :: items => (if closes true item then 0 else 1) + countBroken items

/-- There is a problem in each item that is no expression. -/
theorem Word.Yields.length_eq {start : Nat} {item : List Word}
    {es : List Expression} {ds : List Diagnostic}
    (h : Yields start item es ds) :
    ds.length = if closes true item then 0 else 1 := by
  cases h with
  | whole h => rw [h, if_pos rfl, List.length_nil]
  | broken h => rw [h, if_neg Bool.false_ne_true, List.length_singleton]

/-- No operator is too loose for an item, so what stops it is an operand. -/
theorem Word.Stops.isOperand {w : Word} {ws : List Word}
    (h : Stops .assignment (w :: ws)) (hw : w.isPiece = true) :
    w.isOperand = true := by
  cases hoperand : w.isOperand with
  | true => rfl
  | false =>
    obtain ⟨o, ho⟩ := exists_operator hw hoperand
    have hlow : o.level < 0 := h w rfl o ho
    have hbounds := o.level_bounds
    omega

/-- **In front of the items of a list**, the first of which is at an offset;
or in front of the bracket behind them. -/
def State.AtItems (s : State) (found : Array Diagnostic) (start : Nat)
    (items : List (List Word)) : Prop :=
  ∃ stop, (items ≠ [] → stop = start)
    ∧ s.AtWords found stop (inside items)

namespace Parse

open ScriptTree.Action

variable {g : Grammar} {n turns : Nat} {ctx : Context} {s t u : State}
  {found : Array Diagnostic} {start : Nat} {item : List Word}
  {items : List (List Word)} {es : List Expression}

/-! ## One turn of the list -/

section Turn

variable {point : TolerantPoint} {closer : Punctuator} {p : Parse Expression}
  {e e' : Expression}

/-- **After an item** the list goes on behind the comma, if there is one.
Without a comma or the closing mark there is one more item first, unless the
item is an error. -/
theorem separatedFrom_succ (hopen : s.current.isPunctuator closer = false)
    (hrun : tolerant point p ctx s = (.ok e, t)) :
    separatedFrom point closer p (turns + 1) es ctx s
      = (if t.current.isPunctuator .comma || t.current.isPunctuator closer
          || e.isError then
        separatedFrom point closer p turns (e :: es)
      else do
        let skipped ← missingSeparator point
          (inQuotes "," ++ " or " ++ inQuotes closer.spelling)
        discard (eat .comma)
        separatedFrom point closer p turns (skipped :: e :: es)) ctx
          (eat .comma ctx t).2 := by
  have hat (u : State) : (liftM (atPunctuator closer) : Parse Bool) ctx u
      = (.ok (u.current.isPunctuator closer), u) := rfl
  have heat : (liftM (eat .comma) : Parse Bool) ctx t
      = (.ok (eat .comma ctx t).1, (eat .comma ctx t).2) := rfl
  rw [separatedFrom, bind_run, hat]
  dsimp only
  rw [hopen, if_neg Bool.false_ne_true, bind_run, hrun]
  dsimp only
  rw [bind_run, heat]
  cases hcomma : t.current.isPunctuator .comma with
  | true =>
    rw [eat_run, if_pos hcomma]
    rfl
  | false =>
    have hstay : eat .comma ctx t = (false, t) := by
      rw [eat_run, if_neg (Bool.eq_false_iff.1 hcomma)]
    rw [hstay]
    dsimp only
    rw [if_neg Bool.false_ne_true, bind_run, hat]
    dsimp only
    cases hcloser : t.current.isPunctuator closer with
    | true => rfl
    | false =>
      rw [if_neg Bool.false_ne_true]
      show (if e.isError = true then _ else _ : Parse _) ctx t = _
      cases herror : e.isError with
      | true =>
        show separatedFrom point closer p turns (e :: es) ctx
          (eat .comma ctx t).2 = _
        rw [hstay]
        rfl
      | false => rfl

/-- An item that ends where it should. -/
theorem separatedFrom_past (hopen : s.current.isPunctuator closer = false)
    (hrun : tolerant point p ctx s = (.ok e, t))
    (hpast : t.current.isPunctuator .comma = true
      ∨ t.current.isPunctuator closer = true) :
    separatedFrom point closer p (turns + 1) es ctx s
      = separatedFrom point closer p turns (e :: es) ctx
        (eat .comma ctx t).2 := by
  rw [separatedFrom_succ hopen hrun, if_pos]
  rcases hpast with h | h <;> simp [h]

/-- An item with something else behind it, which is mended. -/
theorem separatedFrom_apart (hopen : s.current.isPunctuator closer = false)
    (hrun : tolerant point p ctx s = (.ok e, t)) (herror : e.isError = false)
    (hcomma : t.current.isPunctuator .comma = false)
    (hcloser : t.current.isPunctuator closer = false)
    (hmissing : missingSeparator point
      (inQuotes "," ++ " or " ++ inQuotes closer.spelling) ctx t
        = (.ok e', u)) :
    separatedFrom point closer p (turns + 1) es ctx s
      = separatedFrom point closer p turns (e' :: e :: es) ctx
        (eat .comma ctx u).2 := by
  have hstay : (eat .comma ctx t).2 = t := by
    rw [eat_run, hcomma]
    rfl
  rw [separatedFrom_succ hopen hrun,
    if_neg (by simp [hcomma, hcloser, herror]), hstay, bind_run, hmissing]
  rfl

end Turn

/-- The comma behind an item is read. -/
theorem eat_comma_run (hs : s.AtWords found start (behindItem items)) :
    (eat .comma ctx s).2.AtItems found (start + width [comma]) items := by
  rw [eat_run]
  have hkind : s.current.kind = kindOf (behindItem items) := hs.kind_eq
  cases items with
  | nil =>
    rw [if_neg (by simp [Token.isPunctuator, hkind, behindItem, kindOf,
      closing, ofChar])]
    exact ⟨start, fun h => absurd rfl h, hs⟩
  | cons item items =>
    rw [if_pos (by simp [Token.isPunctuator, hkind, behindItem, kindOf,
      comma, ofChar])]
    exact ⟨_, fun _ => rfl, hs.bump ctx⟩

variable (hg : g.ReadsFronts n) (htable : ctx.table = .standard)
  (htolerant : ctx.options.tolerant = true) (hturns : n < ctx.turns)

include hg htable htolerant hturns

/-- **One item of a list.** -/
theorem separatedFrom_turn (hitem : IsItem n item)
    (hbehind : EndsItem (behindItem items))
    (hmax : closes true item = false →
      found.size < ctx.options.maxDiagnostics)
    (hs : s.AtItems found start (item :: items)) :
    ∃ xs t, ∃ ds : List Diagnostic,
      separatedFrom .listElement .rBracket (assignment g) (turns + 1) es ctx s
        = separatedFrom .listElement .rBracket (assignment g) turns
          (xs.reverse ++ es) ctx t
      ∧ t.AtItems (found ++ ds.toArray) (start + width item + width [comma])
        items
      ∧ Yields start item xs ds := by
  obtain ⟨hlength, hne, hpieces⟩ := hitem
  obtain ⟨_, hstart, hs⟩ := hs
  rw [hstart (List.cons_ne_nil _ _), inside_cons] at hs
  obtain ⟨hhere, hopen⟩ : s.here = start
      ∧ s.current.isPunctuator .rBracket = false := by
    obtain ⟨w, ws, rfl⟩ := List.exists_cons_of_ne_nil hne
    exact ⟨hs.here_eq, (hs.of_isPiece (hpieces w List.mem_cons_self)).2⟩
  have hlt {done rest : List Word} (hitem : item = done ++ rest) :
      rest.length < ctx.turns ∧ ∀ w ∈ rest, w.isPiece = true := by
    subst hitem
    rw [List.length_append] at hlength
    exact ⟨by omega, fun w hw => hpieces w (List.mem_append_right done hw)⟩
  -- Behind the item the list goes on.
  have hgo {x : Expression} {u : State} {found' : Array Diagnostic}
      (hrun : tolerant .listElement (assignment g) ctx s = (.ok x, u))
      (hu : u.AtWords found' (start + width item) (behindItem items)) :
      separatedFrom .listElement .rBracket (assignment g) (turns + 1) es ctx s
        = separatedFrom .listElement .rBracket (assignment g) turns (x :: es)
          ctx (eat .comma ctx u).2 := by
    have hkind : u.current.kind = kindOf (behindItem items) := hu.kind_eq
    exact separatedFrom_past hopen hrun (hbehind.kindOf_eq.imp
      (fun h => decide_eq_true (hkind.trans h))
      (fun h => decide_eq_true (hkind.trans h)))
  rcases hg .assignment hlength htable (Nat.lt_trans hlength hturns)
    (by decide) hpieces hbehind hs with
    ⟨e, t, done, rest, hitem, hrun, ht, he, hclosed, hstops⟩ |
    ⟨t, done, rest, hitem, hrun, ht, hclosed⟩
  · have htolerate : tolerant .listElement (assignment g) ctx s
        = (.ok e, t) := by
      rw [tolerant_run, assignment, hrun]
    cases rest with
    | nil =>
      rw [List.append_nil] at hitem
      subst hitem
      exact ⟨[e], _, [], hgo htolerate ht, eat_comma_run ht,
        .whole hclosed he⟩
    | cons w rest =>
      obtain ⟨hlt, hrest⟩ := hlt hitem
      have hw := hrest w List.mem_cons_self
      obtain ⟨hcomma, hcloser⟩ := ht.of_isPiece hw
      have hbroken : closes true item = false :=
        hclosed.trans (closes_apart (hstops.isOperand hw))
      obtain ⟨node, d, u, hmend, hu, hspan, hd⟩ := missingSeparator_mends
        htolerant (hmax hbroken) hlt hrest hbehind
        (inQuotes "," ++ " or " ++ inQuotes Punctuator.rBracket.spelling)
        (List.cons_ne_nil w rest) ht
      have hplace : start + width done + width (w :: rest)
          = start + width item := by
        rw [hitem, width_append, Nat.add_assoc]
      rw [hplace] at hu hspan
      refine ⟨[e, .error node], (eat .comma ctx u).2, [d],
        separatedFrom_apart hopen htolerate he.isError_eq hcomma hcloser
          hmend, eat_comma_run hu, ?_⟩
      subst hitem
      exact .broken hbroken (List.cons_ne_nil _ _) (.expression he) hspan hd
  · obtain ⟨hlt, hrest⟩ := hlt hitem
    obtain ⟨node, d, u, htolerate, hu, hspan, hd⟩ := tolerant_mends htolerant
      (hmax hclosed) hlt hrest hbehind (hitem ▸ hne) hhere hrun ht
    rw [← hitem] at hu hspan
    have hyields : Yields start ([] ++ item) ([] ++ [.error node]) [d] :=
      .broken hclosed hne .nothing hspan hd
    exact ⟨[.error node], (eat .comma ctx u).2, [d], hgo htolerate hu,
      eat_comma_run hu, hyields⟩

/-- **A list of items** up to the bracket that closes it. -/
theorem separatedFrom_run (es : List Expression)
    (hitems : ∀ item ∈ items, IsItem n item)
    (hle : items.length ≤ turns)
    (hmax : found.size + countBroken items ≤ ctx.options.maxDiagnostics)
    (hs : s.AtItems found start items) :
    ∃ xs t, ∃ ds : List Diagnostic,
      separatedFrom .listElement .rBracket (assignment g) turns es ctx s
        = (.ok (es.reverse ++ xs), t)
      ∧ (∃ stop, t.AtWords (found ++ ds.toArray) stop [closing])
      ∧ YieldsAll start items xs ds := by
  induction items generalizing turns s found start es with
  | nil =>
    obtain ⟨stop, -, hs⟩ := hs
    refine ⟨[], s, [], ?_, ⟨stop, hs⟩, .nil⟩
    rw [List.append_nil]
    cases turns with
    | zero => rfl
    | succ turns =>
      have hcloser : s.current.isPunctuator .rBracket = true :=
        decide_eq_true hs.kind_eq
      have hat : (liftM (atPunctuator .rBracket) : Parse Bool) ctx s
          = (.ok true, s) := by
        rw [← hcloser]
        rfl
      rw [separatedFrom, bind_run, hat]
      rfl
  | cons item items ih =>
    obtain ⟨hitem, hitems⟩ := List.forall_mem_cons.1 hitems
    cases turns with
    | zero => exact absurd hle (Nat.not_succ_le_zero _)
    | succ turns =>
      rw [countBroken] at hmax
      have hroom : closes true item = false →
          found.size < ctx.options.maxDiagnostics := by
        intro hbroken
        rw [hbroken, if_neg Bool.false_ne_true] at hmax
        omega
      obtain ⟨xs, t, ds, hrun, ht, hyields⟩ := separatedFrom_turn hg htable
        htolerant hturns hitem (endsItem_behindItem hitems) hroom hs
      have hsize : (found ++ ds.toArray).size + countBroken items
          ≤ ctx.options.maxDiagnostics := by
        have hcount : ds.toArray.size = if closes true item then 0 else 1 :=
          hyields.length_eq
        rw [Array.size_append, hcount]
        omega
      obtain ⟨xs', u, ds', hrun', ⟨stop, hu⟩, hall⟩ := ih _ hitems
        (Nat.le_of_succ_le_succ hle) hsize ht
      refine ⟨xs ++ xs', u, ds ++ ds', ?_, ⟨stop, ?_⟩, .cons hyields hall⟩
      · rw [hrun, hrun']
        simp
      · rwa [Array.append_assoc, List.append_toArray ds ds'] at hu

end Parse

end ScriptTree
