import ScriptTree.Proofs.Account.Walk
import ScriptTree.Proofs.Token.Delimiter

/-!
# The regular expressions of a tree

A regular expression is scanned from its front and taken apart from its
end: the scanner looks for the slash that ends it, past those behind a
backslash and those in brackets, and the literal is split at its last
slash. If the scanner has found an end the two slashes are the same, since
there is none among the flags. So the parts of the literal are the body and
the flags the scanner has seen (`parseWith_regex`).

A regular expression without an end may have slashes in it all the same. It
is split at the last of them, and what is behind that is taken for flags
whatever it is.
-/

namespace ScriptTree

/-- **A text is split at its last slash** wherever that is known to be. -/
theorem SplitsAtSlash.eq_of_not_mem {x f pattern flags : List Char}
    (h : SplitsAtSlash ('/' :: (x ++ '/' :: f)) pattern flags)
    (hf : '/' ∉ f) : pattern = x ∧ flags = f := by
  generalize htext : '/' :: (x ++ '/' :: f) = text at h
  cases h with
  | slash hflags =>
    have h := (List.cons.inj htext).2
    -- The longer pattern would have a slash among the flags.
    rcases List.append_eq_append_iff.1 h with ⟨y, rfl, hy⟩ | ⟨y, rfl, hy⟩
    all_goals
      cases y with
      | nil => simp_all
      | cons c y =>
        obtain ⟨rfl, rfl⟩ := List.cons.inj hy
        simp at hf hflags
  | noSlash hpattern =>
    obtain rfl := (List.cons.inj htext).2
    simp at hpattern

/-- The literals of a tree are the nodes that are literals. -/
theorem Node.mem_literals_iff {n : Node} {l : Literal} :
    l ∈ n.literals ↔ .literal l ∈ n.all := by
  have hleaf {m : Node} {x : Leaf} (hm : m.leaf? = some x)
      (hx : x.literal? = some l) : m = .literal l := by
    cases m <;> cases hm <;> cases hx
    rfl
  simp only [literals, leaves, List.mem_filterMap]
  constructor
  · rintro ⟨x, ⟨m, hm, hmx⟩, hx⟩
    rwa [← hleaf hmx hx]
  · exact fun h => ⟨.literal l, ⟨_, h, rfl⟩, rfl⟩

/-- **A regular expression of a tree** in its text: the one behind the slash
that has `before` in front of it and `cs` behind it. -/
structure Literal.RegexAt (source before cs : List Char) (l : Literal)
    (pattern flags : List Char) : Prop where
  /-- There is a slash. -/
  source_eq : source = before ++ '/' :: cs
  /-- The literal begins with it. -/
  start_eq : l.span.start = byteLength before
  /-- It is all that the scanner finds there. -/
  raw_eq : l.raw = String.ofList ('/' :: cs.take (Lexeme.regex cs).extent)
  /-- If it has an end, that is where it is split, and behind it are
  flags. -/
  terminated : (Lexeme.regex cs).error = none →
    ∃ behind, cs = pattern ++ '/' :: behind ∧ RegexBody false pattern
      ∧ flags = behind.takeWhile Char.isLower
      ∧ l.raw = String.ofList ('/' :: (pattern ++ '/' :: flags))
  /-- If it has none it is split at its last slash, if it has any. -/
  unterminated : (Lexeme.regex cs).error ≠ none →
    SplitsAtSlash l.raw.toList pattern flags

/-- **A regular expression as it is scanned** has the parts the scanner has
seen. -/
theorem Literal.Scanned.regexAt {source : List Char} {l : Literal}
    {pattern flags : String} (h : l.Scanned source)
    (hkind : l.kind = .regex pattern flags) :
    ∃ before cs, l.RegexAt source before cs pattern.toList flags.toList := by
  obtain ⟨before, cs, hsource, hstart, hraw, hsplits⟩ :=
    h pattern flags hkind
  refine ⟨before, cs, hsource, hstart, hraw, fun herror => ?_,
    fun _ => hsplits⟩
  obtain ⟨x, behind, rfl, hx, hextent⟩ :=
    exists_of_regexExtent (Prod.ext rfl herror)
  have hextent : (Lexeme.regex (x ++ '/' :: behind)).extent
      = x.length + (1 + (behind.takeWhile Char.isLower).length) := by
    refine Eq.trans hextent ?_
    omega
  have htake : (x ++ '/' :: behind).take
      (Lexeme.regex (x ++ '/' :: behind)).extent
        = x ++ '/' :: behind.takeWhile Char.isLower := by
    rw [hextent, List.take_length_add_append, Nat.add_comm 1,
      List.take_succ_cons,
      ← List.prefix_iff_eq_take.1 (List.takeWhile_prefix _)]
  have hslash : '/' ∉ behind.takeWhile Char.isLower := by
    intro h
    exact absurd (List.all_eq_true.mp List.all_takeWhile _ h) (by decide)
  rw [htake] at hraw
  rw [hraw, String.toList_ofList] at hsplits
  obtain ⟨hpattern, hflags⟩ := hsplits.eq_of_not_mem hslash
  rw [hpattern, hflags]
  exact ⟨behind, rfl, hx, rfl, hraw⟩

variable (options : Options) (table : OperatorTable) (source : List Char)

/-- The regular expressions of a tree are what is scanned in their
places. -/
theorem parseWith_scanned :
    (Node.program (parseWith options table source).program).Everywhere
      (fun n => ∀ l, n = .literal l → l.Scanned source) :=
  Node.everywhere_program nofun fun x hx n hn =>
    (parseWith_body options table source x hx n hn).1.scanned

/-- **Every regular expression of a tree** is one the scanner finds behind a
slash of the text. If the scanner finds its end, it is split there, into a
body of the grammar of regular expressions and flags that are lower-case
letters. Otherwise it is split at the last slash in it, or is all pattern if
there is none. -/
theorem parseWith_regex (l : Literal) (pattern flags : String)
    (hl : l
      ∈ (Node.program (parseWith options table source).program).literals)
    (hkind : l.kind = .regex pattern flags) :
    ∃ before cs, l.RegexAt source before cs pattern.toList flags.toList :=
  (parseWith_scanned options table source _ (Node.mem_literals_iff.1 hl) l
    rfl).regexAt hkind

/-- The slash in brackets does not end the expression, nor does the slash
that is escaped. -/
theorem parseWith_regex_class :
    let source := "x=/[/]\\/y/gi".toList
    ∃ before cs, Literal.RegexAt source before cs
      ⟨.regex "[/]\\/y" "gi", "/[/]\\/y/gi", ⟨2, 12⟩⟩
      "[/]\\/y".toList "gi".toList :=
  parseWith_regex .standard .standard _ _ _ _ (by decide +kernel) rfl

/-- **A regular expression without an end may be split**: the slash in this
one is in brackets that nothing closes, and what is behind it is no flag. -/
theorem exists_regex_flags :
    ¬∀ (options : Options) (table : OperatorTable) (source : List Char)
        (l : Literal) (pattern flags : String),
      l ∈ (Node.program
        (parseWith options table source).program).literals →
      l.kind = .regex pattern flags →
      (∀ c ∈ flags.toList, c.isLower = true)
        ∧ (l.raw = "/" ++ pattern ++ "/" ++ flags
          ∨ l.raw = "/" ++ pattern ∧ flags = "") := by
  intro h
  have hflags := (h .standard .standard "/[/0".toList
    ⟨.regex "[" "0", "/[/0", ⟨0, 4⟩⟩ "[" "0" (by decide +kernel) rfl).1
  exact absurd (hflags '0' (by decide)) (by decide)

end ScriptTree
