import ScriptTree.Parse.Callable
import ScriptTree.Parse.Operand
import ScriptTree.Proofs.Parse.Grammar

/-!
# Operands in their places

Functions, classes and methods come first. Of the rest, most operands are a
token, or begin with one and end with another. Only two things need a
thought: a slash that is read again is still the same place, and what is
read ahead of an arrow function is looked at and not read.
-/

namespace ScriptTree.Parse

open ScriptTree.Action

variable {root ctx : Context} {s : State} {P : Expression → Prop}

/-! ## Names -/

theorem parameterNamesFrom_ensures (P : Expression → Prop) (turns : Nat)
    {b : Nat} {found : List Identifier}
    (hfound : State.ReadsRow (As root P .identifier) b found.reverse s) :
    Ensures root (parameterNamesFrom turns found) ctx s
      (State.ReadsRow (As root P .identifier) b) := by
  induction turns generalizing s found with
  | zero => exact .pure hfound
  | succ turns ih =>
    refine (identifier_ensures P).bind fun id t hst hid => ?_
    have hfound : State.ReadsRow (As root P .identifier) b
        (id :: found).reverse t := by
      rw [List.reverse_cons]
      exact hfound.concat hst hid
    refine (Ensures.lift (eat_ensures .comma)).bind fun _ u htu _ => ?_
    have hfound := hfound.later htu
    exact .ite (fun _ => ih hfound) (fun _ => .pure hfound)

theorem parameterNames_ensures (P : Expression → Prop) :
    Ensures root parameterNames ctx s
      (fun ids t => State.Parts root P s.here (ids.map .identifier) t) := by
  refine .look (s.current.isPunctuator .rParen) rfl ?_
  dsimp only
  refine .ite (fun _ => ?_) (fun _ => .look ctx rfl ?_)
  · refine .look [] rfl ?_
    refine (expectPunctuator_ensures .rParen).discard.bind
      fun _ t hst _ => ?_
    exact .pure (.nil hst.here_le)
  · refine (parameterNamesFrom_ensures P _
      (.nil (Nat.le_refl s.here))).bind fun ids t _ hids => ?_
    refine (expectPunctuator_ensures .rParen).discard.bind
      fun _ u htu _ => ?_
    exact .pure (hids.parts.later htu)

theorem optionalIdentifier_ensures (P : Expression → Prop) :
    Ensures root optionalIdentifier ctx s (fun id? t =>
      State.Parts root P s.here (id?.toList.map .identifier) t) := by
  refine .look (decide (s.current.kind = .identifier)) rfl
    (.ite (fun _ => ?_) (fun _ => .pure (.nil (Nat.le_refl _))))
  refine (identifier_ensures P).bind fun id t hst hid => ?_
  exact .pure (hid.parts hst)

/-! ## Functions -/

variable {g : Grammar} (hg : g.Sound root P)

include hg

/-- **A function** takes up the place from where it is said to begin. -/
theorem functionExpression_ensures (isAsync : Bool) {start : Nat}
    (hcut : IsCut root.source start) (hle : start ≤ s.here) :
    Ensures root (functionExpression g isAsync start) ctx s
      (State.ReadsOperand root P start) := by
  refine (expectKeyword_ensures _).discard.bind fun _ t hst _ => ?_
  refine (Ensures.lift (eat_ensures .star)).bind
    fun isGenerator u htu _ => ?_
  refine (optionalIdentifier_ensures P).bind fun id? v huv hid => ?_
  refine (parameterList_ensures hg).bind fun params w hvw hparams => ?_
  refine hg.block.bind fun body x hwx hbody => ?_
  refine .look (x.spanFrom start) rfl ?_
  have hle : start ≤ u.here := Nat.le_trans hle (hst.trans htu).here_le
  have hparts := ((hid.append hvw hparams).read hwx hbody).sooner hle
  have hpast : start < x.consumedTo :=
    Nat.lt_of_le_of_lt (Nat.le_trans hle (huv.trans hvw).here_le) hbody.1
  rw [State.spanFrom_eq hpast]
  have hf := hwx.node hcut hpast
    (n := .function ⟨id?, params, body, isAsync, ⟨start, x.consumedTo⟩⟩)
    rfl rfl hparts trivial
  cases isGenerator with
  | true => exact .pure ⟨⟨hpast, hf.2.wrap rfl rfl rfl (hg.primary rfl)⟩, rfl⟩
  | false => exact .pure ⟨⟨hpast, hf.2.wrap rfl rfl rfl (hg.primary rfl)⟩, rfl⟩

/-! ## Methods -/

omit hg

theorem isEof_of_atWord {word : String}
    (h : (s.current.isWord word && !s.scanner.peek.isPunctuator .lParen)
      = true) : s.current.isEof = false :=
  isEof_of_isWord (Bool.and_eq_true_iff.1 h).1

theorem modifier_ensures (word : String) :
    Action.Ensures root (modifier word) ctx s (fun _ _ => True) := by
  refine .look (s.current.isWord word) rfl (.look s.scanner.peek rfl ?_)
  refine .ite (fun h => ?_) (fun _ => .pure trivial)
  exact (advance_ensures (isEof_of_atWord h)).discard.bind
    (fun _ _ _ _ => .pure trivial)

theorem methodKind_ensures :
    Action.Ensures root methodKind ctx s (fun _ _ => True) := by
  refine (eat_ensures .star).bind fun _ t _ _ => ?_
  refine .ite (fun _ => .pure trivial) (fun _ => ?_)
  refine (modifier_ensures "get").bind fun _ u _ _ => ?_
  refine .ite (fun _ => .pure trivial) (fun _ => ?_)
  refine (modifier_ensures "set").bind fun _ v _ _ => ?_
  exact .ite (fun _ => .pure trivial) (fun _ => .pure trivial)

theorem methodName_ensures (P : Expression → Prop) :
    Ensures root methodName ctx s
      (State.Reads (As root P .identifier) s.here) :=
  .look s.current rfl
    (.ite (fun _ => propertyName_ensures P) (fun _ => unexpected_ensures _))

include hg

/-- **A method** takes up the place from where it is said to begin. -/
theorem method_ensures (isStatic : Bool) {start : Nat}
    (hcut : IsCut root.source start) (hle : start ≤ s.here) :
    Ensures root (method g isStatic start) ctx s
      (State.Reads (As root P .method) start) := by
  refine (Ensures.lift (modifier_ensures "async")).bind
    fun isAsync t hst _ => ?_
  refine (Ensures.lift methodKind_ensures).bind fun kind u htu _ => ?_
  refine (methodName_ensures P).bind fun key v huv hkey => ?_
  refine (parameterList_ensures hg).bind fun params w hvw hparams => ?_
  refine hg.block.bind fun body x hwx hbody => ?_
  refine .look (x.spanFrom start) rfl ?_
  have hle : start ≤ u.here := Nat.le_trans hle (hst.trans htu).here_le
  have hparts := (((hkey.parts huv).append hvw hparams).read hwx
    hbody).sooner hle
  have hpast : start < x.consumedTo :=
    Nat.lt_of_le_of_lt (Nat.le_trans hle (huv.trans hvw).here_le) hbody.1
  rw [State.spanFrom_eq hpast]
  exact .pure (hwx.node hcut hpast rfl rfl hparts trivial)

theorem classMethodsFrom_ensures (turns : Nat) {b : Nat}
    {found : List Method}
    (hfound : State.ReadsRow (As root P .method) b found.reverse s) :
    Ensures root (classMethodsFrom g turns found) ctx s
      (State.ReadsRow (As root P .method) b) := by
  induction turns generalizing s found with
  | zero => exact .pure hfound
  | succ turns ih =>
    refine .look s.current rfl (.ite (fun _ => .pure hfound) (fun _ => ?_))
    -- The word for a method of the class belongs to the method.
    refine .look s.here rfl (.of_good fun _ hs => ?_)
    refine (Ensures.lift (modifier_ensures "static")).bind
      fun isStatic t hst _ => ?_
    refine (method_ensures hg isStatic hs.isCut_here hst.here_le).bind
      fun m u htu hm => ?_
    refine (Ensures.lift (eat_ensures .semicolon).discard).bind
      fun _ v huv _ => ih ?_
    rw [List.reverse_cons]
    exact (hfound.concat (hst.trans htu) hm).later huv

theorem classMethods_ensures :
    Ensures root (classMethods g) ctx s
      (fun ms t => State.Parts root P s.here (ms.map .method) t) :=
  .look ctx rfl ((classMethodsFrom_ensures hg _
    (.nil (Nat.le_refl _))).mono (fun _ _ _ h => h.parts))

/-! ## Classes -/

omit hg in
theorem className_ensures (P : Expression → Prop) (mayBeUnnamed : Bool) :
    Ensures root (className mayBeUnnamed) ctx s (fun id? t =>
      State.Parts root P s.here (id?.toList.map .identifier) t) := by
  refine .ite (fun _ => optionalIdentifier_ensures P) (fun _ => ?_)
  refine (identifier_ensures P).bind fun id t hst hid => ?_
  exact .pure (hid.parts hst)

theorem classParent_ensures :
    Ensures root (classParent g) ctx s (fun e? t =>
      State.Parts root P s.here (e?.toList.map .expression) t) := by
  refine .look (s.current.isKeyword .kwExtends) rfl
    (.ite (fun h => ?_) (fun _ => .pure (.nil (Nat.le_refl _))))
  refine (Ensures.lift (advance_ensures
    (isEof_of_isKeyword h)).discard).bind fun _ t hst _ => ?_
  refine (hg.expression .call).bind fun e u htu he => ?_
  exact .pure ((he.parts htu).sooner hst.here_le)

/-- **A class.** -/
theorem classDefinition_ensures (mayBeUnnamed : Bool) :
    Ensures root (classDefinition g mayBeUnnamed) ctx s
      (State.Reads (As root P .classDef) s.here) := by
  refine .of_good (fun _ hs => ?_)
  refine (expectKeyword_ensures _).bind fun opening t hst hopening => ?_
  refine (className_ensures P mayBeUnnamed).bind
    fun id? u htu hid => ?_
  refine (classParent_ensures hg).bind fun parent? v huv hparent => ?_
  refine (expectPunctuator_ensures .lBrace).discard.bind
    fun _ w hvw _ => ?_
  refine hg.methods.bind fun methods x hwx hmethods => ?_
  refine (expectPunctuator_ensures .rBrace).discard.bind
    fun _ y hxy _ => ?_
  refine .look (y.spanFrom opening.span.start) rfl ?_
  have hpast := Nat.lt_of_lt_of_le hopening.past
    (htu.trans (huv.trans (hvw.trans (hwx.trans hxy)))).consumedTo_le
  have hparts := ((((hid.append huv hparent).later hvw).append hwx
    hmethods).later hxy).sooner hst.here_le
  rw [hopening.start_eq, State.spanFrom_eq hpast]
  exact .pure (hxy.node hs.isCut_here hpast rfl rfl hparts trivial)

end ScriptTree.Parse

namespace ScriptTree.Parse

open ScriptTree.Action

variable {root ctx : Context} {s : State} {P : Expression → Prop}
  {g : Grammar}

/-! ## Literals -/

theorem regexParts_cons (cs : List Char) : regexParts ('/' :: cs)
    = let flags := (cs.reverse.takeWhile (· ≠ '/')).reverse
      if flags.length = cs.length then (cs, [])
      else (cs.take (cs.length - flags.length - 1), flags) := rfl

/-- Without another slash there are no flags. -/
theorem regexParts_of_not_mem {cs : List Char} (h : '/' ∉ cs) :
    regexParts ('/' :: cs) = (cs, []) := by
  have hall : cs.reverse.takeWhile (· ≠ '/') = cs.reverse := by
    have hne : ∀ c ∈ cs.reverse, decide (c ≠ '/') = true := by
      intro c hc
      rw [decide_eq_true_eq]
      rintro rfl
      exact h (List.mem_reverse.1 hc)
    rw [← List.append_nil cs.reverse, List.takeWhile_append_of_pos hne]
    rfl
  rw [regexParts_cons, hall, List.reverse_reverse]
  exact if_pos rfl

/-- The flags stand behind the last slash. -/
theorem regexParts_append (pattern : List Char) {flags : List Char}
    (h : '/' ∉ flags) :
    regexParts ('/' :: (pattern ++ '/' :: flags)) = (pattern, flags) := by
  have htake : (pattern ++ '/' :: flags).reverse.takeWhile (· ≠ '/')
      = flags.reverse := by
    rw [List.reverse_append, List.reverse_cons, List.append_assoc,
      List.takeWhile_append_of_pos, List.singleton_append,
      List.takeWhile_cons_of_neg (by simp), List.append_nil]
    intro c hc
    rw [decide_eq_true_eq]
    rintro rfl
    exact h (List.mem_reverse.1 hc)
  have hlength : (pattern ++ '/' :: flags).length - flags.length - 1
      = pattern.length := by
    rw [List.length_append, List.length_cons]
    omega
  rw [regexParts_cons, htake, List.reverse_reverse]
  dsimp only
  rw [hlength, List.take_left,
    if_neg (by rw [List.length_append, List.length_cons]; omega)]

/-- **The two parts of a regular expression** are what the last slash
behind its first one divides. -/
theorem regexParts_splits (cs : List Char) :
    SplitsAtSlash ('/' :: cs) (regexParts ('/' :: cs)).1
      (regexParts ('/' :: cs)).2 := by
  by_cases h : '/' ∈ cs
  · obtain ⟨flags, pattern, hcs, hflags⟩ :=
      List.eq_append_cons_of_mem (List.mem_reverse.2 h)
    obtain rfl : cs = pattern.reverse ++ '/' :: flags.reverse := by
      rw [← List.reverse_reverse cs, hcs]
      simp
    have hflags : '/' ∉ flags.reverse := by simpa using hflags
    rw [regexParts_append _ hflags]
    exact .slash hflags
  · rw [regexParts_of_not_mem h]
    exact .noSlash h

theorem regexLiteral_ensures (P : Expression → Prop)
    (hkind : s.current.kind = .regex) :
    Ensures root regexLiteral ctx s
      (State.Reads (As root P .literal) s.here) := by
  refine .look s.current rfl (.of_good fun _ hs => ?_)
  obtain ⟨front, text, hfaces⟩ := hs.faces
  obtain ⟨cs, htext, -⟩ := hfaces.cutsRegex hkind
  have hsplits := regexParts_splits (cs.take (Lexeme.regex cs).extent)
  rw [← String.toList_ofList (l := '/' :: cs.take _), ← htext] at hsplits
  generalize regexParts s.current.text.toList = parts at hsplits
  refine literal_ensures P _ (isEof_eq_false hkind nofun) ?_
  rintro pattern flags hregex
  obtain ⟨rfl, rfl⟩ := LiteralKind.regex.inj hregex
  simp only [String.toList_ofList]
  exact ⟨hkind, hsplits⟩

/-- **A slash read again** stands where it stood. -/
theorem rescannedRegex_ensures (P : Expression → Prop)
    (hslash : s.current.kind = .punctuator .slash
      ∨ s.current.kind = .punctuator .slashEq) :
    Ensures root rescannedRegex ctx s
      (State.Reads (As root P .literal) s.here) := by
  refine .look ctx rfl ?_
  -- What is read next is another token, at the place of the slash.
  refine Ensures.bind (Q := fun _ t => t.here = s.here
    ∧ t.current.kind = .regex) ?_ (fun _ t _ h => ?_)
  · intro hctx hs
    obtain ⟨_, hhere, hkind⟩ := State.rescanRegex_good hs hslash
    show s.Leads root (s.rescanRegex ctx)
      ∧ ∀ _, _ → (s.rescanRegex ctx).here = s.here ∧ _
    rw [State.rescanRegex_congr hctx]
    exact ⟨.step hs (.rescan hslash), fun _ _ => ⟨hhere, hkind⟩⟩
  · rw [← h.1]
    exact regexLiteral_ensures P h.2

/-! ## Arrow functions -/

variable (hg : g.Sound root P)

include hg

/-- **An arrow function** takes up the place from where it is said to
begin, with its parameters behind that. -/
theorem arrowFunction_ensures (isAsync : Bool) {params : List Identifier}
    {start : Nat} (hcut : IsCut root.source start)
    (hparams : State.Parts root P start (params.map .identifier) s) :
    Ensures root (arrowFunction g isAsync params start) ctx s
      (State.ReadsOperand root P start) := by
  refine (expectPunctuator_ensures .arrow).discard.bind
    fun _ t hst _ => ?_
  refine .look (t.current.isPunctuator .lBrace) rfl ?_
  -- A body of either kind ends the function.
  have hend : ∀ body u, t.Leads root u →
      State.Reads (As root P ArrowBody.part) t.here body u →
      Ensures root (do
          let span ← liftM (spanFrom start)
          pure (Expression.arrow isAsync params body span)) ctx u
        (State.ReadsOperand root P start) := by
    intro body u htu hbody
    refine .look (u.spanFrom start) rfl ?_
    have hparts := (hparams.later hst).read htu hbody
    have hpast : start < u.consumedTo :=
      Nat.lt_of_le_of_lt (hparams.later hst).le hbody.1
    rw [State.spanFrom_eq hpast]
    exact .pure ⟨htu.node hcut hpast rfl rfl hparts (hg.primary rfl), rfl⟩
  dsimp only
  refine .ite (fun _ => ?_) (fun _ => ?_)
  · refine Ensures.bind (.map hg.block) hend
  · refine Ensures.bind (.map (assignment_ensures hg)) hend

/-- **A function behind the word for an asynchronous one**, or nothing is
read. -/
theorem asyncFunction?_ensures (heof : s.current.isEof = false) :
    Ensures root (asyncFunction? g) ctx s (fun e? t =>
      (∀ e, e? = some e → State.ReadsOperand root P s.here e t)
        ∧ (e? = none → t = s)) := by
  refine .look s rfl (.of_good fun _ hs => ?_)
  dsimp only
  have hsome : ∀ {e t}, State.ReadsOperand root P s.here e t →
      (∀ e', some e = some e' →
        State.ReadsOperand root P s.here e' t)
        ∧ (some e = none → t = s) :=
    fun h => ⟨fun _ h' => Option.some.inj h' ▸ h, fun h' => nomatch h'⟩
  refine .ite (fun _ => ?_) (fun _ => .ite (fun _ => ?_) (fun _ => .ite
    (fun _ => ?_) (fun _ => .pure ⟨fun _ h => (nomatch h), fun _ => rfl⟩)))
  · refine (Ensures.lift (advance_ensures heof).discard).bind
      fun _ t hst _ => ?_
    refine (functionExpression_ensures hg true hs.isCut_here
      hst.here_le).bind fun e u _ he => ?_
    exact .pure (hsome he)
  · refine (Ensures.lift (advance_ensures heof).discard).bind
      fun _ t hst _ => ?_
    refine (identifier_ensures P).bind fun param u htu hparam => ?_
    have hparams : State.Parts root P s.here ([param].map .identifier) u :=
      (hparam.parts htu).sooner hst.here_le
    refine (arrowFunction_ensures hg true hs.isCut_here hparams).bind
      fun e v _ he => ?_
    exact .pure (hsome he)
  · refine (Ensures.lift (advance_ensures heof).discard).bind
      fun _ t hst _ => ?_
    refine (parameterList_ensures hg).bind fun params u htu hparams => ?_
    refine (arrowFunction_ensures hg true hs.isCut_here
      (hparams.sooner hst.here_le)).bind fun e v _ he => ?_
    exact .pure (hsome he)

theorem nameOrArrow_ensures :
    Ensures root (nameOrArrow g) ctx s
      (State.ReadsOperand root P s.here) := by
  refine .look s.current rfl (.look s.scanner.peek rfl (.of_good ?_))
  intro _ hs
  refine .ite (fun _ => ?_) (fun _ => ?_)
  · refine (identifier_ensures P).bind fun param t hst hparam => ?_
    exact arrowFunction_ensures hg false hs.isCut_here (hparam.parts hst)
  · refine (identifier_ensures P).bind fun id t _ hid => ?_
    exact .pure ⟨⟨hid.1, hid.2.wrap rfl rfl rfl (hg.primary rfl)⟩, rfl⟩

theorem nameOperand_ensures :
    Ensures root (nameOperand g) ctx s
      (State.ReadsOperand root P s.here) := by
  refine .look (s.current.isWord "async") rfl (.ite (fun h => ?_) (fun _ => ?_))
  · refine (asyncFunction?_ensures hg (isEof_of_isWord h)).bind
      fun e? t _ h => ?_
    cases e? with
    | some e => exact .pure (h.1 e rfl)
    | none =>
      rw [h.2 rfl]
      exact nameOrArrow_ensures hg
  · exact nameOrArrow_ensures hg

/-! ## Brackets -/

theorem parenthesizedOrArrow_ensures :
    Ensures root (parenthesizedOrArrow g) ctx s
      (State.ReadsOperand root P s.here) := by
  refine .look s rfl (.of_good fun _ hs => ?_)
  refine .ite (fun _ => ?_) (fun _ => ?_)
  · refine (parameterList_ensures hg).bind fun params t hst hparams => ?_
    exact arrowFunction_ensures hg false hs.isCut_here hparams
  · refine (condition_ensures hg).bind fun e t hst he => ?_
    refine .look (t.spanFrom s.here) rfl ?_
    rw [State.spanFrom_eq he.past]
    exact .pure ⟨hst.node hs.isCut_here he.past rfl rfl he
      (hg.primary rfl), rfl⟩

theorem arrayElements_ensures :
    Ensures root (arrayElements g) ctx s
      (fun es t => State.Parts root P s.here (es.map .expression) t) :=
  (separated_ensures hg.mend_expression (fun _ => assignment_ensures hg)
    _ _).mono (fun _ _ _ h => h.parts)

/-- **An array.** -/
theorem arrayLiteral_ensures :
    Ensures root (arrayLiteral g) ctx s
      (State.ReadsOperand root P s.here) := by
  refine .of_good (fun _ hs => ?_)
  refine (expectPunctuator_ensures _).bind fun opening t hst hopening => ?_
  refine hg.elements.bind fun elements u htu helements => ?_
  refine (expectPunctuator_ensures .rBracket).discard.bind
    fun _ v huv _ => ?_
  refine .look (v.spanFrom opening.span.start) rfl ?_
  have hpast := Nat.lt_of_lt_of_le hopening.past (htu.trans huv).consumedTo_le
  rw [hopening.start_eq, State.spanFrom_eq hpast]
  exact .pure ⟨huv.node hs.isCut_here hpast rfl rfl
    ((helements.sooner hst.here_le).later huv) (hg.primary rfl), rfl⟩

/-- **A key with the value behind it** is an item of its object. -/
theorem pairWith_ensures {key : PropertyKey} {start : Nat}
    (hcut : IsCut root.source start)
    (hkey : State.Parts root P start [key.part] s) :
    Ensures root (pairWith g key start) ctx s
      (State.Reads (AsItem root P ObjectMember.item) start) := by
  refine (expectPunctuator_ensures .colon).discard.bind fun _ t hst _ => ?_
  refine (assignment_ensures hg).bind fun value u htu hvalue => ?_
  have hparts := (hkey.later hst).read htu hvalue
  have hpast : start < u.consumedTo := hparts.past
  have hspan : value.span.stop = u.consumedTo := by
    rw [show value.span = _ from hvalue.2.spans]
  rw [hspan]
  exact .pure ⟨hpast, rfl, htu.fits hcut hpast, hparts.row⟩

omit hg in
/-- A method as a member. -/
theorem method_member {m : Method} {b : Nat} {t : State}
    (h : State.Reads (As root P .method) b m t) :
    State.Reads (AsItem root P ObjectMember.item) b (.method m) t :=
  ⟨h.1, h.2.spans, h.2.placed.fits,
    .single h.2 (Nat.le_refl b) h.1 (Nat.le_refl _)⟩

/-- **A member of an object.** -/
theorem objectMember_ensures :
    Ensures root (objectMember g) ctx s
      (State.Reads (AsItem root P ObjectMember.item) s.here) := by
  refine .look s.current rfl (.of_good fun _ hs => ?_)
  have hmethod : Ensures root (do
      let m ← method g false s.here
      pure (ObjectMember.method m)) ctx s
      (State.Reads (AsItem root P ObjectMember.item) s.here) := by
    refine (method_ensures hg false hs.isCut_here (Nat.le_refl _)).bind
      fun m t _ hm => ?_
    exact .pure (method_member hm)
  have hname : Ensures root (do
      let next ← liftM peek
      if next.isPunctuator .colon = true then
        pairWith g (.identifier (← propertyName)) s.here
      else return .method (← method g false s.here)) ctx s
      (State.Reads (AsItem root P ObjectMember.item) s.here) := by
    refine .look s.scanner.peek rfl (.ite (fun _ => ?_) (fun _ => hmethod))
    refine (propertyName_ensures P).bind fun id t hst hid => ?_
    exact pairWith_ensures hg hs.isCut_here (hid.parts hst)
  dsimp only
  split
  · rename_i hk
    refine (literal_ensures P .string
      (isEof_eq_false hk (fun h => nomatch h)) nofun).bind fun l t hst hl => ?_
    exact pairWith_ensures hg hs.isCut_here (hl.parts hst)
  · rename_i hk
    refine (literal_ensures P .number
      (isEof_eq_false hk (fun h => nomatch h)) nofun).bind fun l t hst hl => ?_
    exact pairWith_ensures hg hs.isCut_here (hl.parts hst)
  · exact hmethod
  · exact hname
  · exact hname
  · exact unexpected_ensures _

theorem objectMembers_ensures :
    Ensures root (objectMembers g) ctx s
      (State.ReadsRow (AsItem root P ObjectMember.item) s.here) :=
  separated_ensures mend_member (fun _ => objectMember_ensures hg) _ _

/-- **An object.** Its members are its items. -/
theorem objectLiteral_ensures :
    Ensures root (objectLiteral g) ctx s
      (State.ReadsOperand root P s.here) := by
  refine .of_good (fun _ hs => ?_)
  refine (expectPunctuator_ensures _).bind fun opening t hst hopening => ?_
  refine hg.members.bind fun members u htu hmembers => ?_
  refine (expectPunctuator_ensures .rBrace).discard.bind
    fun _ v huv _ => ?_
  refine .look (v.spanFrom opening.span.start) rfl ?_
  have hpast := Nat.lt_of_lt_of_le hopening.past (htu.trans huv).consumedTo_le
  have hrow := ((hmembers.sooner hst.here_le).later huv).row
  rw [hopening.start_eq, State.spanFrom_eq hpast]
  refine .pure ⟨⟨hpast, .intro rfl (huv.fits hs.isCut_here hpast) ?_ ?_
    (fun _ h => (nomatch h)) nofun (fun h => (nomatch h))
    (hg.primary rfl)⟩, rfl⟩
  · exact hrow.flatMap (fun _ _ _ _ h => h.2.2)
  · exact hrow.map (fun _ _ _ h => h)

/-! ## Any operand -/

/-- A token that is an expression by itself. -/
theorem leaf_reads {e : Expression} {token : Token} {t : State}
    (hst : s.Leads root t) (htook : s.Took token t)
    (hspan : e.span = token.span) (hchildren : e.children = [])
    (hplain : (Node.expression e).isPlain = true)
    (hprimary : e.isPrimary = true) :
    State.ReadsOperand root P s.here e t := by
  refine ⟨hst.node hst.good_start.isCut_here htook.past hplain
    (hspan.trans htook.span_eq) ?_ (hg.primary hprimary), hprimary⟩
  rw [show (Node.expression e).children = [] from hchildren]
  exact .nil hst.here_le

theorem superOperand_ensures (heof : s.current.isEof = false) :
    Ensures root superOperand ctx s
      (State.ReadsOperand root P s.here) := by
  refine (Ensures.lift (advance_ensures heof)).bind
    fun token t hst htook => ?_
  refine .look t.current rfl (.ite (fun _ => ?_) (fun _ => ?_))
  · exact .pure (leaf_reads hg hst htook rfl rfl rfl rfl)
  · exact unexpected_ensures _

/-- A literal as an operand. -/
theorem literalOperand_ensures {p : Parse Literal}
    (hp : Ensures root p ctx s (State.Reads (As root P .literal) s.here)) :
    Ensures root (p >>= fun l => pure (.literal l)) ctx s
      (State.ReadsOperand root P s.here) :=
  hp.bind (fun _ _ _ h =>
    .pure ⟨⟨h.1, h.2.wrap rfl rfl rfl (hg.primary rfl)⟩, rfl⟩)

theorem keywordOperand_ensures (k : Keyword)
    (heof : s.current.isEof = false) :
    Ensures root (keywordOperand g k) ctx s
      (State.ReadsOperand root P s.here) := by
  refine .of_good (fun _ hs => ?_)
  unfold keywordOperand
  split
  · refine (Ensures.lift (advance_ensures heof)).bind
      fun token t hst htook => ?_
    exact .pure (leaf_reads hg hst htook rfl rfl rfl rfl)
  · exact superOperand_ensures hg heof
  · exact literalOperand_ensures hg (literal_ensures P _ heof nofun)
  · exact literalOperand_ensures hg (literal_ensures P _ heof nofun)
  · exact literalOperand_ensures hg (literal_ensures P _ heof nofun)
  · exact literalOperand_ensures hg (literal_ensures P _ heof nofun)
  · refine .look s.here rfl ?_
    exact functionExpression_ensures hg false hs.isCut_here (Nat.le_refl _)
  · refine (classDefinition_ensures hg false).bind fun c t _ hc => ?_
    exact .pure ⟨⟨hc.1, hc.2.wrap rfl rfl rfl (hg.primary rfl)⟩, rfl⟩
  · exact unexpected_ensures _

/-- **An operand without operators.** -/
theorem primary_ensures :
    Ensures root (primary g) ctx s
      (State.ReadsOperand root P s.here) := by
  have heof : ∀ {kind : TokenKind}, s.current.kind = kind →
      kind ≠ .eof → s.current.isEof = false := isEof_eq_false
  refine .look s.current rfl ?_
  split
  case h_1 => exact nameOperand_ensures hg
  case h_2 hk =>
    exact literalOperand_ensures hg
      (literal_ensures P _ (heof hk (fun h => nomatch h)) nofun)
  case h_3 hk =>
    exact literalOperand_ensures hg
      (literal_ensures P _ (heof hk (fun h => nomatch h)) nofun)
  case h_4 hk =>
    exact literalOperand_ensures hg
      (literal_ensures P _ (heof hk (fun h => nomatch h)) nofun)
  case h_5 hk =>
    exact literalOperand_ensures hg (regexLiteral_ensures P hk)
  case h_6 hk =>
    exact literalOperand_ensures hg (rescannedRegex_ensures P (.inl hk))
  case h_7 hk =>
    exact literalOperand_ensures hg (rescannedRegex_ensures P (.inr hk))
  case h_8 => exact parenthesizedOrArrow_ensures hg
  case h_9 => exact arrayLiteral_ensures hg
  case h_10 => exact objectLiteral_ensures hg
  case h_11 k hk =>
    exact keywordOperand_ensures hg k (heof hk (fun h => nomatch h))
  case h_12 => exact unexpected_ensures _

end ScriptTree.Parse
