import ScriptTree.Proofs.Cursor.Session
import ScriptTree.Proofs.Cursor.Slices
import ScriptTree.Proofs.Parse.Outcome

/-!
# A parse is never at fault

A parse works with its scanner like any other: it asks for tokens, looks
ahead with copies, and goes back to a token it has been handed in order to
read it again. So the scanner it holds at any time is that of some session
(`Session.Serves`), and what has been shown of the cursors of all sessions
is true of those of a parse.

It remains to count the levels. Each is entered and left by the same
production, and no step in between touches the count; so in the end all
have been left, and none was left that had not been entered.
-/

namespace ScriptTree

namespace Session

variable {k : Session} {s t : State} {root : Context}

theorem run_append (requests more : List Request) :
    k.run (requests ++ more) = (k.run requests).run more :=
  List.foldl_append

/-- No token handed out is taken back. -/
theorem tokens_prefix_perform (k : Session) (request : Request) :
    k.tokens <+: (k.perform request).tokens := by
  cases request with
  | next => exact List.prefix_append ..
  | nextOfStream =>
    simp only [perform]
    split
    · exact List.prefix_append ..
    · exact List.prefix_rfl
  | drainCopy => exact List.prefix_append ..
  | rescanRegex i =>
    simp only [perform]
    split
    · split
      · exact List.prefix_rfl
      · exact List.prefix_append ..
    · exact List.prefix_rfl

theorem tokens_prefix_run (k : Session) (requests : List Request) :
    k.tokens <+: (k.run requests).tokens := by
  induction requests generalizing k with
  | nil => exact List.prefix_rfl
  | cons request requests ih =>
    exact (k.tokens_prefix_perform request).trans (ih _)

/-- **The next token of the grammar** is handed out by asking for the next
token as often as there are extras before it, and once more. -/
theorem exists_nextSignificant (k : Session) :
    ∃ requests, (k.run requests).scanner = k.scanner.nextSignificant.scanner
      ∧ k.scanner.nextSignificant.token ∈ (k.run requests).tokens := by
  suffices h : ∀ (s : Scanner) (extras : List Token) (k : Session),
      k.scanner = s → ∃ requests,
        (k.run requests).scanner = (s.nextSignificantFrom extras).scanner
          ∧ (s.nextSignificantFrom extras).token
            ∈ (k.run requests).tokens from h _ [] k rfl
  intro s extras
  fun_induction Scanner.nextSignificantFrom s extras with
  | case1 s extras step hextra ih =>
    rintro k rfl
    obtain ⟨requests, hscanner, htoken⟩ := ih (k.perform .next) rfl
    exact ⟨.next :: requests, hscanner, htoken⟩
  | case2 s extras step hextra =>
    rintro k rfl
    exact ⟨[.next], rfl, List.mem_append_right _ (List.mem_singleton_self _)⟩

/-- **A session a parse has been working with**: the scanner is that of
the parse, and the tokens it has come by have been handed out. The token
there was before the first one is none of them. -/
structure Serves (k : Session) (s : State) : Prop where
  /-- The scanner is that of the parse. -/
  scanner_eq : k.scanner = s.scanner
  /-- The current token has been handed out. -/
  current_mem : s.current ∈ k.tokens
  /-- There was a token before the first one. -/
  taken_ne : s.taken ≠ []
  /-- The tokens after it have been handed out. -/
  taken_mem : ∀ token ∈ s.taken.dropLast, token ∈ k.tokens

/-- What a session has handed out it has handed out for good. -/
theorem Serves.mem_run (h : k.Serves s) (requests : List Request)
    {token : Token} (htoken : token ∈ s.current :: s.taken.dropLast) :
    token ∈ (k.run requests).tokens := by
  refine (k.tokens_prefix_run requests).subset ?_
  rcases List.mem_cons.1 htoken with rfl | htoken
  · exact h.current_mem
  · exact h.taken_mem token htoken

/-- A parse reads a token of the grammar. -/
theorem Serves.bump (h : k.Serves s) (ctx : Context) :
    ∃ requests, (k.run requests).Serves (s.bump ctx) := by
  obtain ⟨requests, hscanner, htoken⟩ := k.exists_nextSignificant
  obtain ⟨t, ht, heq⟩ := State.bump_eq ctx s
  rw [h.scanner_eq] at hscanner htoken
  refine ⟨requests, ?_⟩
  rw [heq]
  refine ⟨hscanner, htoken, List.cons_ne_nil _ _, fun token hmem => ?_⟩
  rw [List.dropLast_cons_of_ne_nil h.taken_ne] at hmem
  exact h.mem_run requests hmem

/-- A parse reads a token again as a regular expression. -/
theorem Serves.rescanRegex (h : k.Serves s) (ctx : Context)
    (heof : s.current.isEof = false) :
    ∃ requests, (k.run requests).Serves (s.rescanRegex ctx) := by
  obtain ⟨i, hi⟩ := List.getElem?_of_mem h.current_mem
  obtain ⟨t, ht, heq⟩ := State.rescanRegex_eq ctx s
  have hrun : k.run [.rescanRegex i]
      = k.handOut (s.scanner.rescanRegex s.current) := by
    show k.perform (.rescanRegex i) = _
    simp only [perform, hi, heof, h.scanner_eq, Bool.false_eq_true, if_false]
  refine ⟨[.rescanRegex i], ?_⟩
  rw [heq, hrun]
  refine ⟨rfl, List.mem_append_right _ (List.mem_singleton_self _), ?_,
    fun token hmem => ?_⟩
  · rw [ht.eq]
    exact h.taken_ne
  · rw [ht.eq] at hmem
    exact List.mem_append_left _ (h.taken_mem token hmem)

/-- **Each step of a parse is served** by some requests. -/
theorem Serves.step (h : k.Serves s) (hstep : State.Step root s t) :
    ∃ requests, (k.run requests).Serves t := by
  cases hstep with
  | bump isEof => exact h.bump root
  | rescan slash =>
    refine h.rescanRegex root ?_
    unfold Token.isEof
    rcases slash with hkind | hkind <;> rw [hkind] <;> rfl
  | report kind severity message span =>
    have heq :=
      (State.report_reported root kind severity message span s).eq
    refine ⟨[], ?_⟩
    rw [heq]
    exact ⟨h.scanner_eq, h.current_mem, h.taken_ne, h.taken_mem⟩
  | record event =>
    exact ⟨[], h.scanner_eq, h.current_mem, h.taken_ne, h.taken_mem⟩

/-- **So is a run of it.** -/
theorem Serves.steps (h : k.Serves s) (hsteps : State.Steps root s t) :
    ∃ requests, (k.run requests).Serves t := by
  induction hsteps with
  | refl => exact ⟨[], h⟩
  | tail _ hstep ih =>
    obtain ⟨requests, hserves⟩ := ih
    obtain ⟨more, hserves⟩ := hserves.step hstep
    exact ⟨requests ++ more, by rwa [run_append]⟩

/-- A parse begins with the first token of the grammar. -/
theorem exists_serves_initial (ctx : Context) :
    ∃ requests, ((ofSource ctx.source).run requests).Serves
      (State.initial ctx) := by
  obtain ⟨requests, hscanner, htoken⟩ :=
    (ofSource ctx.source).exists_nextSignificant
  obtain ⟨t, ht, heq⟩ := State.bump_eq ctx (State.blank ctx.source)
  refine ⟨requests, ?_⟩
  rw [State.initial, heq]
  exact ⟨hscanner, htoken, List.cons_ne_nil _ _,
    fun _ hmem => absurd hmem List.not_mem_nil⟩

end Session

/-! ## Levels -/

section Script

variable (options : Options) (table : OperatorTable) (source : List Char)

/-- **All levels that a parse has entered have been left**, and none that
it had not entered: there would be no answer any more. -/
theorem runScript_depth :
    (runScript source options table).2.depth = some 0 := by
  obtain ⟨hleads, _⟩ := runScript_ensures options table source
  obtain ⟨t, ht, heq⟩ := State.bump_eq (.ofSource source options table)
    (State.blank source)
  rw [hleads.steps.depth_eq]
  show ((State.blank source).bump _).depth = _
  rw [heq, ht.eq]
  rfl

/-- **The scanner of a parse** is that of a session, from which the parse
has its tokens. -/
theorem runScript_serves :
    ∃ requests, ((Session.ofSource source).run requests).Serves
      (runScript source options table).2 := by
  obtain ⟨hleads, _⟩ := runScript_ensures options table source
  obtain ⟨requests, hserves⟩ :=
    Session.exists_serves_initial (.ofSource source options table)
  obtain ⟨more, hserves⟩ := hserves.steps hleads.steps
  exact ⟨requests ++ more, by rwa [Session.run_append]⟩

end Script

/-! ## No faults -/

/-- **Nothing goes wrong with an offset or a counter** in a text that is
not too long. Whatever is asked of a cursor, it does what the scanner does
without a fault, and stays between two characters; a parse with any
options and operators asks for nothing else. Nor is there a fault in
finding the line of an offset, in taking a regular expression apart, in
counting brackets on the way to a delimiter, or in counting levels. -/
theorem runScript_faultless {source : List Char}
    (hshort : byteLength source < UInt32.size - 1) :
    (∀ requests,
      let k := (Session.ofSource source).run requests
      (Scan.session requests).run (.ofSource source)
          = .ok (k.tokens, k.scanner.cursor)
        ∧ IsCut source k.scanner.cursor.position.offset)
      ∧ (∀ options table,
        (∃ requests, ((Session.ofSource source).run requests).Serves
            (runScript source options table).2)
          ∧ (runScript source options table).2.depth = some 0)
      ∧ (∀ offset,
        positionAtOrFail source offset = .ok (positionAt source offset))
      ∧ (∀ text, regexPartsOrFail text = .ok (Parse.regexParts text))
      ∧ ∀ point turns depth taken ctx s,
        Parse.skipToOrFail point turns depth taken ctx s
          = .ok (Parse.skipTo point turns depth taken ctx s) := by
  refine ⟨fun requests => ⟨Scan.session_run hshort requests, ?_⟩,
    fun options table => ⟨runScript_serves options table source,
      runScript_depth options table source⟩,
    positionAtOrFail_eq hshort, regexPartsOrFail_eq, Parse.skipToOrFail_eq⟩
  have hin := (Session.ofSource_in source).run requests
  obtain ⟨before, hat⟩ := hin.at_front
  show IsCut source (Scanner.position _).offset
  rw [hat.position_eq, ← hin.source_eq, hat.source_eq]
  exact isCut_append _ _

/-- A division that is read again as a regular expression, with a wide
character in it. -/
theorem runScript_faultless_wide :
    let source := "x /é/ 2".toList
    let requests := [.next, .next, .rescanRegex 1, .next]
    let k := (Session.ofSource source).run requests
    byteLength source < UInt32.size - 1
      ∧ (Scan.session requests).run (.ofSource source)
        = .ok (k.tokens, k.scanner.cursor)
      ∧ IsCut source k.scanner.cursor.position.offset
      ∧ positionAtOrFail source 4 = .ok (positionAt source 4)
      ∧ (runScript source .standard .standard).2.depth = some 0 := by
  intro source requests k
  have hshort : byteLength source < UInt32.size - 1 := by decide
  obtain ⟨hsession, hscript, hposition, _⟩ := runScript_faultless hshort
  exact ⟨hshort, (hsession requests).1, (hsession requests).2, hposition 4,
    (hscript .standard .standard).2⟩

end ScriptTree
