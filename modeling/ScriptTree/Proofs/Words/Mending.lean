import ScriptTree.Proofs.Words.Reading

/-!
# Mending an item of a list

An item made of words is an expression, or it is not. If it is not, then
either nothing is made of it, and all of it becomes an error node; or an
expression is made of a front of it, and the rest becomes an error node of
its own. Only words of the item are passed over, because each of them is an
operand or an operator and none ends an item.
-/

namespace ScriptTree

open Word Parse

/-- No piece of an expression is a bracket or a comma. -/
theorem Word.kind_of_isPiece {w : Word} (h : w.isPiece = true) :
    w.kind.isOpener = false ∧ w.kind.isCloser = false
      ∧ w.kind ≠ .punctuator .comma ∧ w.kind ≠ .punctuator .rBracket := by
  unfold isPiece isOperand operator? at h
  cases hkind : w.kind with
  | punctuator p =>
    rw [hkind] at h
    cases p <;> first | decide | simp [binaryOperator?] at h
  | _ => simp [TokenKind.isOpener, TokenKind.isCloser]

/-- A piece of an item is no mark of the list. -/
theorem State.AtWords.of_isPiece {s : State} {found : Array Diagnostic}
    {start : Nat} {w : Word} {ws : List Word}
    (hs : s.AtWords found start (w :: ws)) (hw : w.isPiece = true) :
    s.current.isPunctuator .comma = false
      ∧ s.current.isPunctuator .rBracket = false := by
  have hkind : s.current.kind = w.kind := hs.kind_eq
  obtain ⟨-, -, hcomma, hcloser⟩ := Word.kind_of_isPiece hw
  exact ⟨decide_eq_false (hkind ▸ hcomma), decide_eq_false (hkind ▸ hcloser)⟩

/-- **A problem that was mended on the spot.** -/
def Diagnostic.IsMended (d : Diagnostic) : Prop :=
  d.kind = .recoverable ∧ d.severity = .error

namespace Parse

open ScriptTree.Action

variable {ctx : Context} {s : State} {found : Array Diagnostic}
  {start : Nat} {front behind tail : List Word}

/-- One turn of passing over tokens. -/
theorem skipTo_succ (point : TolerantPoint) (turns depth : Nat)
    (taken : Bool) :
    skipTo point (turns + 1) depth taken ctx s
      = if s.current.isEof then (taken, s)
        else if depth = 0 && (s.current.kind.isCloser || (taken &&
          point.syncsAt s.current (s.newlineBefore && ctx.newlinesMatter)))
        then (taken, s)
        else skipTo point turns (depthAfter s.current depth) true ctx
          (s.bump ctx) := by
  show (if _ then _ else _ : Action Bool) ctx s = _
  split
  · rfl
  show (if _ then _ else _ : Action Bool) ctx s = _
  split
  · rfl
  · rfl

/-- **Words of an item are passed over**, up to what ends the item. -/
theorem skipTo_run (turns : Nat) {taken : Bool} (hlt : behind.length < turns)
    (hpieces : ∀ w ∈ behind, w.isPiece = true) (htail : EndsItem tail)
    (htaken : taken = true ∨ behind ≠ [])
    (hs : s.AtWords found start (behind ++ tail)) :
    ∃ t, skipTo .listElement turns 0 taken ctx s = (true, t)
      ∧ t.AtWords found (start + width behind) tail := by
  induction turns generalizing behind s start taken with
  | zero => exact absurd hlt (Nat.not_lt_zero _)
  | succ turns ih =>
    cases behind with
    | nil =>
      obtain rfl : taken = true := htaken.resolve_right (fun h => h rfl)
      have hkind : s.current.kind = kindOf tail := hs.kind_eq
      refine ⟨s, ?_, hs⟩
      rw [skipTo_succ]
      rcases htail.kindOf_eq with h | h
      · simp [Token.isEof, Token.isPunctuator, TolerantPoint.syncsAt, hkind, h]
      · simp [Token.isEof, TokenKind.isCloser, Punctuator.isCloser, hkind, h]
    | cons w behind =>
      obtain ⟨hopener, hcloser, hcomma, -⟩ :=
        kind_of_isPiece (hpieces w List.mem_cons_self)
      have hkind : s.current.kind = w.kind := hs.kind_eq
      obtain ⟨t, hrun, ht⟩ := ih (Nat.lt_of_succ_lt_succ hlt)
        (fun v hv => hpieces v (List.mem_cons_of_mem w hv)) (.inl rfl)
        (hs.bump ctx)
      refine ⟨t, ?_, ?_⟩
      · rw [skipTo_succ, if_neg (by simp [Token.isEof, hkind, w.kind_ne_eof]),
          if_neg (by simp [TolerantPoint.syncsAt, Token.isPunctuator, hkind,
            hcloser, hcomma]),
          show depthAfter s.current 0 = 0 by
            simp [depthAfter, hkind, hopener, hcloser]]
        exact hrun
      · rwa [width_cons w behind, ← width_singleton, ← Nat.add_assoc]

/-- **What a token is not wanted for** can be mended, if nothing is wrong
with the token itself. -/
theorem ofToken_mends (expected : String) {token : Token}
    (h : token.error = none) :
    (ParseError.ofToken expected token).isTooDeep = false
      ∧ (ParseError.ofToken expected token).isLexical = false := by
  unfold ParseError.ofToken
  split
  · exact ⟨rfl, rfl⟩
  · refine ⟨rfl, ?_⟩
    show token.error.isSome = false
    rw [h]
    rfl

/-! ## Mending -/

/-- **An error is taken down** while there is room for it. -/
theorem reportError_run {kind : DiagnosticKind} {error : ParseError}
    (htolerant : ctx.options.tolerant = true) (haborted : s.aborted = false)
    (hmax : s.diagnostics.size < ctx.options.maxDiagnostics)
    (hlexical : error.isLexical = false) :
    s.reportError ctx kind error = { s with
      diagnostics := s.diagnostics.push
        { kind := kind
          severity := .error
          message := error.message
          span := error.span
          position := positionAt ctx.source error.span.start }
      aborted := false } := by
  have hroom : ¬(s.aborted || decide (s.diagnostics.size
      ≥ ctx.options.maxDiagnostics)) = true := by
    simp [haborted, hmax]
  unfold State.reportError State.report
  rw [hlexical, if_neg Bool.false_ne_true, if_neg hroom, htolerant]
  rfl

/-- **An error is mended** if something is passed over. -/
theorem mend_run {point : TolerantPoint} {error : ParseError}
    (htolerant : ctx.options.tolerant = true) (haborted : s.aborted = false)
    (hdeep : error.isTooDeep = false)
    (hskip : skipTo point ctx.turns 0 (s.here != start) ctx s = (true, t)) :
    mend point start error ctx s
      = (.ok ⟨String.ofList ((t.spanFrom start).slice ctx.source),
          t.spanFrom start⟩,
        State.reportError ctx .recoverable error
          { t with
            events := t.events.push
              (.recovered point (t.spanFrom start) error) }) := by
  have hstands :
      (!ctx.options.tolerant || s.aborted || error.isTooDeep) = false := by
    simp [htolerant, haborted, hdeep]
  have hget : (get : Parse State) ctx s = (.ok s, s) := rfl
  have htaking : (liftM (skipTo point ctx.turns 0
      (s.current.span.start != start)) : Parse Bool) ctx s
      = (.ok true, t) := by
    show (Except.ok _, _) = _
    rw [show skipTo point ctx.turns 0
      (s.current.span.start != start) ctx s = (true, t) from hskip]
  unfold mend
  rw [bind_run, read_run]
  dsimp only
  rw [bind_run, hget]
  dsimp only
  rw [hstands, if_neg Bool.false_ne_true, bind_run, htaking]
  rfl

/-- **A production that makes an error node** of some words, the first of
which is at an offset, and finds one problem. -/
def Mends (p : Parse Expression) (ctx : Context) (s : State)
    (found : Array Diagnostic) (start : Nat) (ws tail : List Word) : Prop :=
  ∃ node d t, p ctx s = (.ok (.error node), t)
    ∧ t.AtWords (found.push d) (start + width ws) tail
    ∧ node.span = ⟨start, start + width ws - 1⟩ ∧ d.IsMended

variable (htolerant : ctx.options.tolerant = true)
  (hmax : found.size < ctx.options.maxDiagnostics)
  (hturns : behind.length < ctx.turns)
  (hpieces : ∀ w ∈ behind, w.isPiece = true) (htail : EndsItem tail)

include htolerant hmax hturns hpieces htail

/-- **An item is mended** from its front on, when some of its words have
been read and others have not. -/
theorem mend_mends (expected : String) (hne : front ++ behind ≠ [])
    (hs : s.AtWords found (start + width front) (behind ++ tail)) :
    Mends (Mendable.ofError
      <$> mend .listElement start (.ofToken expected s.current)) ctx s found
      start (front ++ behind) tail := by
  obtain ⟨herror, hhere⟩ : s.current.error = none
      ∧ s.here = start + width front := by
    obtain ⟨w, ws, hws⟩ : ∃ w ws, behind ++ tail = w :: ws := by
      obtain ⟨w, ws, rfl⟩ := htail.exists_cons
      exact List.exists_cons_of_ne_nil (by simp)
    rw [hws] at hs
    exact ⟨Token.Is.error_eq hs.current, hs.here_eq⟩
  -- What has been read counts as passed over.
  have htaken : (s.here != start) = true ∨ behind ≠ [] := by
    rcases front with _ | ⟨w, front⟩
    · exact .inr hne
    · have hpos := width_pos (w :: front) (List.cons_ne_nil _ _)
      exact .inl (bne_iff_ne.2 (by omega))
  obtain ⟨hdeep, hlexical⟩ := ofToken_mends expected herror
  generalize ParseError.ofToken expected s.current = error at hdeep hlexical
  have hplace : start + width front + width behind
      = start + width (front ++ behind) := by
    rw [width_append, Nat.add_assoc]
  obtain ⟨t, hskip, ht⟩ : ∃ t,
      skipTo .listElement ctx.turns 0 (s.here != start) ctx s = (true, t)
        ∧ t.AtWords found (start + width (front ++ behind)) tail :=
    hplace ▸ skipTo_run ctx.turns hturns hpieces htail htaken hs
  have hspan : t.spanFrom start
      = ⟨start, start + width (front ++ behind) - 1⟩ := by
    have hpos := width_pos _ hne
    rw [State.spanFrom, ht.consumedTo_eq, Nat.max_eq_left (by omega)]
  let d : Diagnostic :=
    { kind := .recoverable
      severity := .error
      message := error.message
      span := error.span
      position := positionAt ctx.source error.span.start }
  let recorded : State := { t with
    events := t.events.push
      (.recovered .listElement (t.spanFrom start) error) }
  let u : State := { recorded with
    diagnostics := t.diagnostics.push d
    aborted := false }
  have hreport : recorded.reportError ctx .recoverable error = u :=
    reportError_run htolerant ht.aborted_eq
      (show t.diagnostics.size < _ from ht.diagnostics_eq ▸ hmax) hlexical
  refine ⟨⟨String.ofList ((t.spanFrom start).slice ctx.source),
    t.spanFrom start⟩, d, u, ?_, { ht with
      aborted_eq := rfl
      diagnostics_eq := congrArg (Array.push · d) ht.diagnostics_eq }, hspan,
    rfl, rfl⟩
  rw [map_eq_pure_bind, bind_run, mend_run htolerant hs.aborted_eq hdeep hskip]
  exact congrArg (Prod.mk (Except.ok (Expression.error _))) hreport

/-- **A production that fails** behind the front of an item is mended. -/
theorem tolerant_mends {p : Parse Expression} {expected : String}
    (hne : front ++ behind ≠ []) (hhere : s.here = start)
    (hrun : p ctx s = (.error (.ofToken expected t.current), t))
    (ht : t.AtWords found (start + width front) (behind ++ tail)) :
    Mends (tolerant .listElement p) ctx s found start (front ++ behind)
      tail := by
  unfold Mends
  rw [tolerant_run, hrun, hhere]
  exact mend_mends htolerant hmax hturns hpieces htail expected hne ht

/-- **What is left of an item** is mended by itself. -/
theorem missingSeparator_mends (expected : String) (hne : behind ≠ [])
    (hs : s.AtWords found start (behind ++ tail)) :
    Mends (missingSeparator .listElement expected) ctx s found start behind
      tail := by
  have hhere : s.current.span.start = start := by
    obtain ⟨w, ws, rfl⟩ := List.exists_cons_of_ne_nil hne
    exact hs.here_eq
  have hrun : (missingSeparator .listElement expected : Parse Expression)
      ctx s = (Mendable.ofError <$> mend .listElement s.current.span.start
        (.ofToken expected s.current)) ctx s := by
    rw [map_eq_pure_bind]
    rfl
  unfold Mends
  rw [hrun, hhere]
  exact mend_mends htolerant hmax hturns hpieces htail expected
    (show [] ++ behind ≠ [] from hne) hs

end Parse

end ScriptTree
