import ScriptTree.Proofs.Parse.Logic
import ScriptTree.Proofs.Tree.Place

/-!
# What is read, and where it is

Of everything a production reads it says the same two things: that it is
not empty, and what takes up the place from where it began to where the
last token read ends. `State.Reads` is that statement. What takes up the
place is a parameter, mostly a tree (`As`).

The productions that read one token are at the bottom of all this: a
token that is read is a name or a literal in its place.
-/

namespace ScriptTree

variable {root ctx : Context} {s t : State} {α : Type}
  {P : Expression → Prop}

/-- **Something read as a node**: the tree with that node for its root is
in its place. -/
def As (root : Context) (P : Expression → Prop) (mk : α → Node) (a : α)
    (b e : Nat) : Prop :=
  (mk a).Fills root.source P b e

namespace State

/-- **Something has been read from an offset on**, and takes up the place
up to where the last token read ends. -/
def Reads (R : α → Nat → Nat → Prop) (b : Nat) (a : α) (t : State) : Prop :=
  b < t.consumedTo ∧ R a b t.consumedTo

/-- **Things have been read from an offset on**, one behind the other. -/
structure ReadsRow (R : α → Nat → Nat → Prop) (b : Nat) (xs : List α)
    (t : State) : Prop where
  /-- What is read next is behind the offset. -/
  le : b ≤ t.here
  /-- The things stand in a row. -/
  row : Row R b t.consumedTo xs

/-- **Trees have been read from an offset on**, one behind the other. -/
abbrev Parts (root : Context) (P : Expression → Prop) (b : Nat)
    (ns : List Node) (t : State) : Prop :=
  ReadsRow (Node.Fills root.source P) b ns t

/-- **A token has been read**, the one that was current. -/
structure Took (s : State) (token : Token) (t : State) : Prop where
  /-- It is the token that was current. -/
  token_eq : token = s.current
  /-- It is the last token read. -/
  consumedTo_eq : t.consumedTo = token.span.stop
  /-- It is not empty. -/
  past : s.here < t.consumedTo

/-- **Two states at one place.** -/
structure Still (s t : State) : Prop where
  /-- The same token is the last one read. -/
  consumedTo_eq : t.consumedTo = s.consumedTo
  /-- The same token is current. -/
  current_eq : t.current = s.current
  /-- It stands as far behind the one before it. -/
  newlineBefore_eq : t.newlineBefore = s.newlineBefore

theorem Still.here_eq (h : s.Still t) : t.here = s.here := by
  unfold here
  rw [h.current_eq]

theorem Reported.still (h : s.Reported ctx t) : s.Still t := by
  rw [h.eq]
  exact ⟨rfl, rfl, rfl⟩

theorem Took.span_eq {token : Token} (h : s.Took token t) :
    token.span = ⟨s.here, t.consumedTo⟩ := by
  rw [h.consumedTo_eq, h.token_eq]
  rfl

theorem Took.start_eq {token : Token} (h : s.Took token t) :
    token.span.start = s.here := by
  rw [h.span_eq]

theorem spanFrom_eq {start : Nat} (h : start < s.consumedTo) :
    s.spanFrom start = ⟨start, s.consumedTo⟩ := by
  unfold spanFrom
  rw [Nat.max_eq_left (Nat.le_of_lt h)]

namespace Good

/-- A token as a name in its place. -/
theorem identifierOf_fills (hs : s.Good root)
    (heof : s.current.isEof = false) :
    As root P .identifier (Parse.identifierOf s.current) s.here
      s.current.span.stop := by
  obtain ⟨hspan, hfits, htext⟩ := hs.current_occupies heof
  rw [hspan] at hfits htext
  exact .of_text rfl hspan hfits htext nofun

/-- **A regular expression as a literal** is as it is scanned. -/
theorem literal_scanned (hs : s.Good root) {kind : LiteralKind}
    (hkind : ∀ pattern flags, kind = .regex pattern flags →
      s.current.kind = .regex ∧ SplitsAtSlash s.current.text.toList
        pattern.toList flags.toList) :
    Literal.Scanned root.source ⟨kind, s.current.text, s.current.span⟩ := by
  intro pattern flags hregex
  obtain ⟨hcurrent, hsplits⟩ := hkind pattern flags hregex
  obtain ⟨front, text, hfaces⟩ := hs.faces
  obtain ⟨cs, htext, hrest⟩ := hfaces.cutsRegex hcurrent
  refine ⟨front, cs, ?_, hfaces.here_eq, htext, hsplits⟩
  have hpiece := hfaces.spells.text_eq
  rw [htext, String.ofList_inj] at hpiece
  rw [hfaces.source_eq hs, ← hpiece, hrest, List.cons_append,
    List.take_append_drop]

/-- A token as a literal in its place. -/
theorem literal_fills (hs : s.Good root) (heof : s.current.isEof = false)
    (kind : LiteralKind)
    (hkind : ∀ pattern flags, kind = .regex pattern flags →
      s.current.kind = .regex ∧ SplitsAtSlash s.current.text.toList
        pattern.toList flags.toList) :
    As root P .literal ⟨kind, s.current.text, s.current.span⟩ s.here
      s.current.span.stop := by
  obtain ⟨hspan, hfits, htext⟩ := hs.current_occupies heof
  rw [hspan] at hfits htext
  refine .of_text rfl hspan hfits htext (fun l hl => ?_)
  cases hl
  exact hs.literal_scanned hkind

end Good

/-- **What has been read holds text.** -/
theorem Leads.fits {b : Nat} (h : s.Leads root t) (hcut : IsCut root.source b)
    (hpast : b < t.consumedTo) :
    Span.Fits ⟨b, t.consumedTo⟩ root.source :=
  ⟨hcut, h.good.isCut, hpast⟩

/-! ## Putting together what has been read -/

section Rows

variable {R : α → Nat → Nat → Prop} {b : Nat} {x : α} {xs ys : List α}

/-- Nothing has been read yet. -/
theorem ReadsRow.nil (h : b ≤ s.here) : ReadsRow R b [] s := ⟨h, .nil⟩

/-- What has been read stays read. -/
theorem ReadsRow.later (hxs : ReadsRow R b xs s) (h : s.Leads root t) :
    ReadsRow R b xs t :=
  ⟨Nat.le_trans hxs.le h.here_le,
    hxs.row.mono (Nat.le_refl b) h.consumedTo_le⟩

theorem ReadsRow.append (hxs : ReadsRow R b xs s) (h : s.Leads root t)
    (hys : ReadsRow R s.here ys t) : ReadsRow R b (xs ++ ys) t :=
  ⟨(hxs.later h).le,
    hxs.row.append hys.row hxs.le h.good_start.consumedTo_le h.consumedTo_le⟩

/-- One thing is a row. -/
theorem Reads.row (hx : Reads R s.here x t) (h : s.Leads root t) :
    ReadsRow R s.here [x] t :=
  ⟨h.here_le, .single hx.2 (Nat.le_refl _) hx.1 (Nat.le_refl _)⟩

theorem ReadsRow.concat (hxs : ReadsRow R b xs s) (h : s.Leads root t)
    (hx : Reads R s.here x t) : ReadsRow R b (xs ++ [x]) t :=
  hxs.append h (hx.row h)

/-- What has been read behind a place has been read behind any before
it. -/
theorem ReadsRow.sooner {c : Nat} (hxs : ReadsRow R b xs t) (h : c ≤ b) :
    ReadsRow R c xs t :=
  ⟨Nat.le_trans h hxs.le, hxs.row.mono h (Nat.le_refl _)⟩

/-- Where something has been read something has been passed. -/
theorem ReadsRow.past (h : ReadsRow R b (x :: xs) t) : b < t.consumedTo := by
  obtain ⟨_, _, _, _, _, _⟩ := h.row
  omega

/-- Things read as nodes are trees. -/
theorem ReadsRow.parts {mk : α → Node} (h : ReadsRow (As root P mk) b xs t) :
    Parts root P b (xs.map mk) t :=
  ⟨h.le, h.row.map (fun _ _ _ hx => hx)⟩

theorem Reads.parts {mk : α → Node} (hx : Reads (As root P mk) s.here x t)
    (h : s.Leads root t) : Parts root P s.here [mk x] t :=
  (hx.row h).parts

/-- Another tree has been read. -/
theorem ReadsRow.read {mk : α → Node} {ns : List Node}
    (hns : Parts root P b ns s) (h : s.Leads root t)
    (hx : Reads (As root P mk) s.here x t) :
    Parts root P b (ns ++ [mk x]) t :=
  hns.append h (hx.parts h)

/-- **A node that has been read**: it spans what was read, and its
children are what was read. -/
theorem Leads.node {n : Node} (h : s.Leads root t) (hcut : IsCut root.source b)
    (hpast : b < t.consumedTo) (hplain : n.isPlain = true)
    (hspan : n.span = ⟨b, t.consumedTo⟩)
    (hparts : Parts root P b n.children t) (htraced : n.Traced P) :
    Reads (Node.Fills root.source P) b n t :=
  ⟨hpast, .of_isPlain hplain hspan (h.fits hcut hpast) hparts.row htraced⟩

end Rows

end State

/-! ## One token -/

namespace Action

theorem advance_ensures (heof : s.current.isEof = false) :
    Ensures root advance ctx s s.Took := by
  intro hctx hs
  have hrun : advance ctx s = (s.current, s.bump root) :=
    Prod.ext rfl (State.bump_congr hctx s)
  rw [hrun]
  have hleads := State.Leads.step hs (.bump heof)
  obtain ⟨u, _, heq⟩ := State.bump_eq root s
  have hcons : (s.bump root).consumedTo = s.current.span.stop := by
    rw [heq]
  exact ⟨hleads, rfl, hcons, by rw [hcons]; exact hs.here_lt_stop heof⟩

/-- A token of a given kind is not the end of the text. -/
theorem isEof_eq_false {token : Token} {kind : TokenKind}
    (h : token.kind = kind) (hne : kind ≠ .eof) : token.isEof = false := by
  unfold Token.isEof
  rw [h]
  exact decide_eq_false hne

theorem isEof_of_isPunctuator {token : Token} {p : Punctuator}
    (h : token.isPunctuator p = true) : token.isEof = false :=
  isEof_eq_false (of_decide_eq_true h) (fun h => nomatch h)

theorem isEof_of_isKeyword {token : Token} {k : Keyword}
    (h : token.isKeyword k = true) : token.isEof = false :=
  isEof_eq_false (of_decide_eq_true h) (fun h => nomatch h)

theorem kind_of_isWord {token : Token} {word : String}
    (h : token.isWord word = true) : token.kind = .identifier := by
  rw [Token.isWord, Bool.and_eq_true] at h
  exact of_decide_eq_true h.1

theorem isEof_of_isWord {token : Token} {word : String}
    (h : token.isWord word = true) : token.isEof = false :=
  isEof_eq_false (kind_of_isWord h) (fun h => nomatch h)

theorem eat_run (p : Punctuator) (ctx : Context) (s : State) :
    eat p ctx s = if s.current.isPunctuator p then (true, s.bump ctx)
      else (false, s) := by
  show (ite _ _ _ : Action Bool) ctx s = _
  split <;> rfl

theorem eat_ensures (p : Punctuator) :
    Ensures root (eat p) ctx s (fun eaten t => eaten = true →
      s.here < t.consumedTo) := by
  refine .look (s.current.isPunctuator p) rfl (.ite (fun h => ?_) (fun _ => ?_))
  · refine (advance_ensures (isEof_of_isPunctuator h)).discard.bind ?_
    rintro _ t _ ⟨token, htook⟩
    exact .pure (fun _ => htook.past)
  · exact .pure (fun h => nomatch h)

theorem report_ensures (kind : DiagnosticKind) (severity : Severity)
    (message : String) (span : Span) :
    Ensures root (report kind severity message span) ctx s
      (fun _ t => s.Still t) := by
  intro hctx hs
  have hrun : (report kind severity message span ctx s).2
      = s.report root kind severity message span :=
    State.report_congr hctx kind severity message span s
  rw [hrun]
  exact ⟨.step hs (.report kind severity message span),
    (State.report_reported root kind severity message span s).still⟩

theorem reportError_ensures (kind : DiagnosticKind) (error : ParseError) :
    Ensures root (reportError kind error) ctx s (fun _ t => s.Still t) := by
  by_cases h : error.isLexical = true
  · -- The scanner has reported it with its token.
    intro _ hs
    have hrun : (reportError kind error ctx s).2 = s := if_pos h
    rw [hrun]
    exact ⟨.refl hs, rfl, rfl, rfl⟩
  · have hrun : reportError kind error ctx s
        = report kind .error error.message error.span ctx s :=
      Prod.ext rfl (if_neg h)
    intro hctx hs
    rw [hrun]
    exact report_ensures kind .error error.message error.span hctx hs

theorem record_ensures (event : Event) :
    Ensures root (record event) ctx s (fun _ t => s.Still t) :=
  fun _ hs => ⟨.step hs (.record event), rfl, rfl, rfl⟩

end Action

namespace Parse

open ScriptTree.Action

theorem read_run (ctx : Context) (s : State) :
    (read : Parse Context) ctx s = (.ok ctx, s) := rfl

theorem liftM_current_run (ctx : Context) (s : State) :
    (liftM current : Parse Token) ctx s = (.ok s.current, s) := rfl

theorem unexpected_ensures {Q : α → State → Prop} (expected : String) :
    Ensures root (unexpected expected) ctx s Q :=
  .look s.current rfl (.throw _)

theorem expectPunctuator_run (p : Punctuator) (ctx : Context) (s : State) :
    expectPunctuator p ctx s = if s.current.isPunctuator p then
        (.ok s.current, s.bump ctx)
      else (.error (.ofToken (inQuotes p.spelling) s.current), s) := by
  show (ite _ _ _ : Parse _) ctx s = _
  split <;> rfl

theorem expectPunctuator_ensures (p : Punctuator) :
    Ensures root (expectPunctuator p) ctx s s.Took := by
  refine .look (s.current.isPunctuator p) rfl (.ite (fun h => ?_) (fun _ => ?_))
  · exact .lift (advance_ensures (isEof_of_isPunctuator h))
  · exact unexpected_ensures _

theorem expectKeyword_ensures (k : Keyword) :
    Ensures root (expectKeyword k) ctx s s.Took := by
  refine .look (s.current.isKeyword k) rfl (.ite (fun h => ?_) (fun _ => ?_))
  · exact .lift (advance_ensures (isEof_of_isKeyword h))
  · exact unexpected_ensures _

theorem expectWord_ensures (word : String) :
    Ensures root (expectWord word) ctx s s.Took := by
  refine .look (s.current.isWord word) rfl (.ite (fun h => ?_) (fun _ => ?_))
  · exact .lift (advance_ensures (isEof_of_isWord h))
  · exact unexpected_ensures _

/-- The current token is read as a name. -/
theorem identifierOf_ensures (P : Expression → Prop)
    (heof : s.current.isEof = false) :
    Ensures root (liftM advance >>= fun token => pure (identifierOf token))
      ctx s (State.Reads (As root P .identifier) s.here) := by
  refine .of_good (fun _ hs => ?_)
  refine (Ensures.lift (advance_ensures heof)).bind fun token t _ htook => ?_
  refine .pure ⟨htook.past, ?_⟩
  rw [htook.consumedTo_eq, htook.token_eq]
  exact hs.identifierOf_fills heof

theorem identifier_ensures (P : Expression → Prop) :
    Ensures root identifier ctx s
      (State.Reads (As root P .identifier) s.here) := by
  refine .look (decide (s.current.kind = .identifier)) rfl
    (.ite (fun h => ?_) (fun _ => unexpected_ensures _))
  exact identifierOf_ensures P
    (isEof_eq_false (of_decide_eq_true h) (fun h => nomatch h))

theorem isEof_of_namesProperty {token : Token}
    (h : namesProperty token = true) : token.isEof = false := by
  unfold namesProperty at h
  cases hk : token.kind <;> simp_all [Token.isEof]

theorem propertyName_ensures (P : Expression → Prop) :
    Ensures root propertyName ctx s
      (State.Reads (As root P .identifier) s.here) := by
  refine .look s.current rfl
    (.ite (fun h => ?_) (fun _ => unexpected_ensures _))
  exact identifierOf_ensures P (isEof_of_namesProperty h)

theorem literal_ensures (P : Expression → Prop) (kind : LiteralKind)
    (heof : s.current.isEof = false)
    (hkind : ∀ pattern flags, kind = .regex pattern flags →
      s.current.kind = .regex ∧ SplitsAtSlash s.current.text.toList
        pattern.toList flags.toList) :
    Ensures root (literal kind) ctx s
      (State.Reads (As root P .literal) s.here) := by
  refine .of_good (fun _ hs => ?_)
  refine (Ensures.lift (advance_ensures heof)).bind fun token t _ htook => ?_
  refine .pure ⟨htook.past, ?_⟩
  rw [htook.consumedTo_eq, htook.token_eq]
  exact hs.literal_fills heof kind hkind

theorem moduleName_ensures (P : Expression → Prop) :
    Ensures root moduleName ctx s
      (State.Reads (As root P .literal) s.here) := by
  refine .look (decide (s.current.kind = .string)) rfl
    (.ite (fun h => ?_) (fun _ => unexpected_ensures _))
  exact literal_ensures P .string
    (isEof_eq_false (of_decide_eq_true h) (fun h => nomatch h)) nofun

theorem tooDeep_ensures {Q : α → State → Prop} :
    Ensures root tooDeep ctx s Q :=
  .look ctx rfl (.look s.current rfl (.throw _))

end Parse

end ScriptTree
