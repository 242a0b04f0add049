import CliParity.Proofs.Dispatcher.Respacing

/-!
# What the white space of a comparison changes

The block rules look for some texts literally: the comparison with a block's word in one spacing
(`Block.test`), and the beginning of another branch on the whole command (`leavingMark`). A
respacing that makes or unmakes none of them (`Respacing.KeepsMarks`) does the same to the block
(`Respacing.blockAt_line`). A call that writes a reply holds a quote, so one that starts in front of
the comparison may run into it; if there is no quote in front and no such call in the literal, the
reply is one behind the comparison (`Respacing.format?_line`).
-/

set_option autoImplicit false

namespace CliParity.Dispatcher

open Text

/-! ## Openings -/

namespace Block

/-- The heading that opens a block. -/
def heading : Block → String
  | get => "GET commands"
  | set => "SET commands"

/-- The comparison that opens a block. -/
def test : Block → String
  | get => "memcmp(command, \"get \", 4)"
  | set => "memcmp(command, \"set \", 4)"

theorem openings_eq (block : Block) : block.openings = [block.heading, block.test] := by
  cases block <;> rfl

/-- What the comparison says that opens a block. -/
def testParts (block : Block) : Comparison.Parts where
  subject := .command
  literal := block.word.toList
  digits := ['4']
  literal_ne_nil := by cases block <;> decide
  quote_not_mem := by cases block <;> decide
  digits_ne_nil := List.cons_ne_nil _ _
  all_isDigit := by decide

/-- The spacing that it is looked for in: a blank behind each comma. -/
def testSpacing : Comparison.Spacing :=
  ⟨.none, .none, .none, ⟨[' '], rfl⟩, .none, ⟨[' '], rfl⟩, .none⟩

theorem text_testParts (block : Block) : block.testParts.text testSpacing = block.test.toList := by
  cases block <;> decide

theorem foreign_heading (block : Block) : Comparison.Foreign block.heading.toList := by
  cases block <;> decide

theorem foreign_word (block : Block) : Comparison.Foreign block.word.toList := by
  cases block <;> decide

end Block

namespace Comparison

variable {parts mark : Parts} {spacing spacing' : Spacing} {before after : List Char}

/-- A comparison occurs where another is the leftmost only as that one or behind it, if its literal
could not stand behind a literal. -/
theorem text_infix_iff
    (hleft : ∀ u, u <:+ before → u ≠ [] → read? (u ++ (parts.text spacing ++ after)) = none)
    (hmark : mark.literal.head?.any isTailChar = false) :
    mark.text spacing' <:+: before ++ (parts.text spacing ++ after) ↔
      parts.text spacing = mark.text spacing' ∨ mark.text spacing' <:+: after := by
  constructor
  · rintro ⟨a, b, he⟩
    rw [List.append_assoc] at he
    have hhere : mark.text spacing' ++ b = parts.text spacing ++ after →
        parts.text spacing = mark.text spacing' := by
      intro h
      have hread := read?_text parts spacing after
      rw [← h, read?_text] at hread
      obtain ⟨-, rfl⟩ := Prod.mk.inj (Option.some.inj hread)
      exact (List.append_cancel_right h).symm
    rcases List.append_eq_append_iff.1 he with ⟨k, hk, hrest⟩ | ⟨k, hk, hrest⟩
    · by_cases hnil : k = []
      · exact .inl (hhere (by simpa [hnil] using hrest))
      · -- it would be a comparison further left
        have hnone := hleft k ⟨a, hk.symm⟩ hnil
        rw [← hrest, read?_text] at hnone
        cases hnone
    · rcases List.append_eq_append_iff.1 hrest with ⟨j, hj, ha⟩ | ⟨z, hz, hb⟩
      · exact .inr ⟨j, b, by rw [ha, List.append_assoc]⟩
      by_cases hnil : k = []
      · exact .inl (hhere (by simpa [hnil] using hrest.symm))
      by_cases hznil : z = []
      · exact .inr ⟨[], b, by simpa [hznil] using hb⟩
      obtain ⟨v, -, -, hback⟩ := starts_in_literal hz hnil hznil hb
      obtain ⟨c, literal, hc⟩ := List.exists_cons_of_ne_nil mark.literal_ne_nil
      obtain ⟨d, back, hd⟩ := List.exists_cons_of_ne_nil (parts.back_ne_nil spacing)
      rw [hc, hd] at hback
      obtain rfl : c = d := (List.cons.inj hback).1
      rw [hc] at hmark
      exact absurd (hd ▸ List.mem_cons_self) (parts.not_mem_back spacing hmark)
  · rintro (h | h)
    · exact ⟨before, after, by rw [h, List.append_assoc]⟩
    · refine h.trans ⟨before ++ parts.text spacing, [], by simp⟩

/-! ## Leaving -/

/-- The text that another branch on the whole command is told by. -/
def leavingMark : List Char := "\x7d else if (memcmp(command".toList

/-- The part of it in front of the comparison. -/
def branchMark : List Char := "\x7d else if (".toList

/-- The part of it in the comparison. -/
def commandMark : List Char := "memcmp(command".toList

theorem leavingMark_infix_front_iff (parts : Parts) (spacing : Spacing) :
    leavingMark <:+: before ++ parts.front spacing ↔
      leavingMark <:+: before ∨ (branchMark <:+ before ∧ commandMark <+: parts.front spacing) := by
  have hbrace : '\x7d' ∉ parts.front spacing := parts.not_mem_front spacing (by decide) (by decide)
  have hmark : leavingMark = branchMark ++ commandMark := by decide
  constructor
  · intro h
    rcases List.infix_append_iff_ne_nil.1 h with h | h | ⟨x, y, -, hy, he, hx, hyf⟩
    · exact .inl h
    · have hmem : '\x7d' ∈ leavingMark := by decide
      exact absurd (h.subset hmem) hbrace
    · -- of the suffixes of the mark, one goes on like a comparison
      have hends : ∀ y ∈ leavingMark.tails, y ≠ [] → y.take 2 <+: ['m', 'e'] → y = commandMark := by
        decide
      have htake : y.take 2 <+: (parts.front spacing).take 2 := hyf.take 2
      obtain rfl := hends y ((List.mem_tails y _).2 ⟨x, he.symm⟩) hy htake
      obtain rfl : branchMark = x := List.append_cancel_right (hmark.symm.trans he)
      exact .inr ⟨hx, hyf⟩
  · rintro (h | ⟨⟨a, rfl⟩, b, hb⟩)
    · exact h.trans (List.prefix_append _ _).isInfix
    · exact ⟨a, b, by simp [← hb, hmark]⟩

theorem leavingMark_infix_iff (parts : Parts) (spacing : Spacing) :
    leavingMark <:+: before ++ (parts.text spacing ++ after) ↔ leavingMark <:+: before ∨
      (branchMark <:+ before ∧ commandMark <+: parts.text spacing) ∨
        leavingMark <:+: parts.literal ∨ leavingMark <:+: after := by
  rw [infix_cases_iff parts spacing (by decide) (by decide), leavingMark_infix_front_iff,
    Parts.text, prefix_append_cons_iff (by decide)]
  tauto

/-! ## Replies -/

/-- A call that writes a reply begins with an `s` and has its first quote behind `reply`. -/
theorem exists_reply_front {function : String} {s : List Char} (hf : function ∈ replyFunctions)
    (h : (readReply? function s).isSome) :
    ∃ front rest, s = 's' :: front ++ '"' :: rest ∧ '"' ∉ 's' :: front ∧ 'm' ∉ 's' :: front ∧
      "reply".toList <:+: 's' :: front := by
  obtain ⟨m, h⟩ := Option.isSome_iff_exists.1 h
  obtain ⟨s₁, h₁, h⟩ := Option.bind_eq_some_iff.1 h
  obtain ⟨s₂, h₂, h⟩ := Option.bind_eq_some_iff.1 h
  obtain ⟨s₃, h₃, h⟩ := Option.bind_eq_some_iff.1 h
  obtain ⟨s₄, h₄, h⟩ := Option.bind_eq_some_iff.1 h
  obtain ⟨s₅, h₅, -⟩ := Option.bind_eq_some_iff.1 h
  obtain rfl := after?_eq_some_iff.1 h₁
  obtain ⟨b₁, rfl⟩ := (after?_skipBlanks_eq_some_iff (by decide)).1 h₂
  obtain ⟨b₂, rfl⟩ := (after?_skipBlanks_eq_some_iff (by decide)).1 h₃
  obtain ⟨b₃, rfl⟩ := (after?_skipBlanks_eq_some_iff (by decide)).1 h₄
  obtain ⟨b₄, rfl⟩ := (after?_skipBlanks_eq_some_iff (by decide)).1 h₅
  have hblank : ∀ (b : Blanks) {c : Char}, isBlank c = false → c ∉ b.val := fun b c hc h => by
    simp [b.isBlank_of_mem h] at hc
  have hq : isBlank '"' = false := by decide
  have hm : isBlank 'm' = false := by decide
  obtain ⟨name, hname, hqname, hmname⟩ : ∃ name, function.toList = 's' :: name ∧ '"' ∉ name ∧
      'm' ∉ name := by
    simp only [replyFunctions, List.mem_cons, List.not_mem_nil, or_false] at hf
    rcases hf with rfl | rfl
    · exact ⟨"printf".toList, rfl, by decide, by decide⟩
    · exact ⟨"trcpy".toList, rfl, by decide, by decide⟩
  refine ⟨name ++ (b₁.val ++ '(' :: (b₂.val ++ ("reply".toList ++ (b₃.val ++ ',' :: b₄.val)))), s₅,
    by simp [hname], ?_, ?_, ?_⟩
  · simp [hqname, hblank _ hq]
  · simp [hmname, hblank _ hm]
  · exact ⟨'s' :: name ++ (b₁.val ++ '(' :: b₂.val), b₃.val ++ ',' :: b₄.val, by simp⟩

/-- No reply starts in front of the end of a comparison if no quote stands in front of it and no
reply in its literal. -/
theorem readReply?_eq_none {function : String} {u : List Char} (hf : function ∈ replyFunctions)
    (hbefore : '"' ∉ before) (hliteral : ¬ "reply".toList <:+: parts.literal)
    (hu : u <:+ before ++ parts.text spacing) (hne : u ≠ []) :
    readReply? function (u ++ after) = none := by
  rw [← Option.isNone_iff_eq_none, ← Option.isSome_eq_false_iff, ← Bool.not_eq_true]
  intro h
  obtain ⟨front, rest, he, hq, hm, hreply⟩ := exists_reply_front hf h
  obtain ⟨w, hw⟩ := hu
  rcases List.append_eq_append_iff.1 hw with ⟨k, hk, rfl⟩ | ⟨k, -, htext⟩
  · -- the call would have to reach its quote in front of the comparison
    rw [List.append_assoc] at he
    obtain ⟨m, rfl, hrest⟩ := eq_append_of_not_mem hm rfl he.symm
    cases m with
    | nil => exact absurd (List.cons.inj hrest).1 (by decide)
    | cons d m =>
      obtain rfl : '"' = d := (List.cons.inj hrest).1
      exact hbefore (hk ▸ by simp)
  · rcases quoted_start_cases htext hq he with hfront | ⟨v, -, hv, -⟩ | ⟨w, hback⟩
    · exact absurd (hfront ▸ List.mem_append_right k List.mem_cons_self)
        (parts.not_mem_front spacing (by decide) (by decide))
    · exact hliteral (hreply.trans (hv ▸ (List.suffix_append v _).isInfix))
    · obtain ⟨d, u, rfl⟩ := List.exists_cons_of_ne_nil hne
      obtain rfl : d = 's' := (List.cons.inj he).1
      exact absurd (hback ▸ List.mem_append_right w List.mem_cons_self)
        (parts.not_mem_back spacing (by decide))

end Comparison

/-! ## A respacing -/

namespace Respacing

open Comparison

variable (r : Respacing)

/-- The respacing makes and unmakes none of the texts that the block rules look for. -/
structure KeepsMarks : Prop where
  opening : ∀ block : Block,
    r.parts.text r.spacing = block.test.toList ↔ r.parts.text r.spacing' = block.test.toList
  leaving : branchMark <:+ r.before →
    (commandMark <+: r.parts.text r.spacing ↔ commandMark <+: r.parts.text r.spacing')

variable {r}

theorem isOpenedBy_line (h : r.KeepsMarks) (block : Block) :
    block.isOpenedBy r.line = block.isOpenedBy r.line' := by
  have hmark : block.testParts.literal.head?.any isTailChar = false := by
    cases block <;> decide
  have htest : contains r.line block.test.toList = contains r.line' block.test.toList := by
    rw [Bool.eq_iff_iff, contains_iff, contains_iff, ← block.text_testParts]
    refine (text_infix_iff r.leftmost hmark).trans (Iff.trans ?_
      (text_infix_iff r.symm.leftmost hmark).symm)
    rw [block.text_testParts]
    exact or_congr_left (h.opening block)
  rw [Block.isOpenedBy, Block.isOpenedBy, block.openings_eq]
  simp only [List.any_cons, List.any_nil, htest, r.contains_of_foreign block.foreign_heading]

theorem leavesBlock_line (h : r.KeepsMarks) (block : Block) :
    leavesBlock block.word r.line = leavesBlock block.word r.line' := by
  have hbranch : contains r.line leavingMark = contains r.line' leavingMark := by
    rw [Bool.eq_iff_iff, contains_iff, contains_iff]
    refine (leavingMark_infix_iff r.parts r.spacing).trans (Iff.trans ?_
      (leavingMark_infix_iff r.parts r.spacing').symm)
    rw [and_congr_right h.leaving]
    rfl
  exact congrArg₂ (fun found word => found && !word) hbranch
    (r.contains_of_foreign block.foreign_word)

theorem blockAt_line (h : r.KeepsMarks) (block : Option Block) :
    Context.blockAt block r.line = Context.blockAt block r.line' := by
  simp only [Context.blockAt, isOpenedBy_line h, leavesBlock_line h]

theorem replyTemplate?_line (hbefore : '"' ∉ r.before)
    (hliteral : ¬ "reply".toList <:+: r.parts.literal) :
    replyTemplate? r.line = replyTemplate? r.after := by
  have hfirst : ∀ function ∈ replyFunctions,
      firstMatch? (readReply? function) r.line = firstMatch? (readReply? function) r.after := by
    intro function hf
    rw [line, ← List.append_assoc]
    exact firstMatch?_append_of_none fun u hu hne =>
      readReply?_eq_none hf hbefore hliteral hu hne
  simp (disch := decide) only [replyTemplate?, replyFunctions, List.findSome?_cons,
    List.findSome?_nil, hfirst]

theorem format?_line (hbefore : '"' ∉ r.before)
    (hliteral : ¬ "reply".toList <:+: r.parts.literal) : format? r.line = format? r.line' := by
  have hsymm : replyTemplate? r.line' = replyTemplate? r.after :=
    replyTemplate?_line (r := r.symm) hbefore hliteral
  rw [format?, format?, replyTemplate?_line hbefore hliteral, hsymm]

end Respacing

/-! ## Tolerance -/

/-- **Spacing is tolerated but for the marks of the blocks.** The leftmost comparison of every line
may be spaced in any other way, and it is the same comparison then. Whether every dispatcher with
the line keeps all its commands is a matter of what the line does to the block and of the reply
format that it shows. What it does to the block stays unless a mark is made or unmade; the format
stays unless a quote stands in front of the comparison or a call that writes a reply may start in
its literal. -/
theorem spacing_tolerance :
    (∀ (line : List Char) (comparison : Comparison) (spacing' : Comparison.Spacing),
      '\n' ∉ line → Comparison.first? line = some comparison → spacing'.OneLine →
        ∃ r : Respacing, r.line = line ∧ r.parts.comparison = comparison ∧
          r.spacing' = spacing') ∧
    ∀ r : Respacing,
      Comparison.first? r.line' = Comparison.first? r.line ∧
      (Interchangeable r.line r.line' ↔
        (∀ block, Context.blockAt block r.line = Context.blockAt block r.line') ∧
          format? r.line = format? r.line') ∧
      (r.KeepsMarks → ∀ block, Context.blockAt block r.line = Context.blockAt block r.line') ∧
      ('"' ∉ r.before → ¬ "reply".toList <:+: r.parts.literal →
        format? r.line = format? r.line') := by
  refine ⟨fun line comparison spacing' hl h hs => exists_respacing hl h hs, fun r => ?_⟩
  exact ⟨r.first?_line'.trans r.first?_line.symm, r.interchangeable_iff, Respacing.blockAt_line,
    Respacing.format?_line⟩

/-! ## Lines with one comparison -/

theorem Comparison.read?_eq_none_of_not_mem {u t : List Char} (hne : u ≠ []) (hm : 'm' ∉ u) :
    Comparison.read? (u ++ t) = none := by
  refine Option.eq_none_iff_forall_not_mem.2 fun (c, rest) h => ?_
  obtain ⟨parts, spacing, he, -⟩ := Comparison.read?_eq_some_iff.1 h
  obtain ⟨d, u, rfl⟩ := List.exists_cons_of_ne_nil hne
  obtain rfl : d = 'm' := (List.cons.inj he).1
  exact hm List.mem_cons_self

/-- A line that ends with a comparison and has no `m` in front of it. -/
def lastOnLine (before : String) (parts : Comparison.Parts) (spacing spacing' : Comparison.Spacing)
    (hm : 'm' ∉ before.toList) (hl : '\n' ∉ before.toList ++ (parts.text spacing ++ []))
    (hs : spacing'.OneLine) : Respacing where
  before := before.toList
  parts := parts
  spacing := spacing
  spacing' := spacing'
  after := []
  leftmost _ hu hne := Comparison.read?_eq_none_of_not_mem hne fun h => hm (hu.subset h)
  newline_not_mem := hl
  oneLine' := hs

/-- The comparison of the command with `x`. -/
def xParts : Comparison.Parts := { probeParts 0 with subject := .command }

/-- The only white space is a blank behind the name. -/
def blankName : Comparison.Spacing := { Comparison.Spacing.tight with name := ⟨[' '], rfl⟩ }

/-- The only white space is a blank in front of the subject. -/
def blankSubject : Comparison.Spacing := { Comparison.Spacing.tight with opening := ⟨[' '], rfl⟩ }

/-- A comparison that is no mark, and behind no beginning of one. -/
def unmarkedRespacing : Respacing :=
  lastOnLine "if (" xParts .tight blankName (by decide) (by decide) (by decide)

/-- A comparison that is no mark, nor stands behind the beginning of one, may be spaced otherwise in
every dispatcher. -/
theorem interchangeable_no_mark :
    (∃ r : Respacing, r.line = "if (memcmp(command,\"x\",1)".toList ∧
      r.parts.comparison = xParts.comparison ∧ r.spacing' = blankName) ∧
    Interchangeable "if (memcmp(command,\"x\",1)".toList "if (memcmp (command,\"x\",1)".toList := by
  have hmarks : unmarkedRespacing.KeepsMarks :=
    ⟨fun block => by cases block <;> decide, fun h => absurd h (by decide)⟩
  obtain ⟨-, hiff, hblock, hformat⟩ := spacing_tolerance.2 unmarkedRespacing
  refine ⟨spacing_tolerance.1 _ _ _ (by decide) (by decide +kernel) (by decide), ?_⟩
  exact hiff.2 ⟨hblock hmarks, hformat (by decide) (by decide)⟩

/-- Two dispatchers that differ in the spacing of one comparison have other commands. -/
def Respacing.TellsApart (r : Respacing) (source source' : String) : Prop :=
  (∃ i, (lines source.toList)[i]? = some r.line ∧
    lines source'.toList = (lines source.toList).set i r.line') ∧
  extract .meshCore source' ≠ extract .meshCore source

/-- The test that opens a block is looked for in one spacing. -/
def testRespacing : Respacing :=
  lastOnLine "" Block.get.testParts Block.testSpacing .tight (by decide) (by decide) (by decide)

/-- Another branch is looked for with no white space up to the subject. -/
def branchRespacing : Respacing :=
  lastOnLine "\x7d else if (" xParts .tight blankName (by decide) (by decide) (by decide)

/-- A reply may run up to the quote of the comparison. -/
def replyRespacing : Respacing :=
  lastOnLine "sprintf(reply,\"" xParts .tight blankSubject (by decide) (by decide) (by decide)

theorem testRespacing_tellsApart : testRespacing.TellsApart
    "memcmp(command, \"get \", 4)\nmemcmp(config,\"af\",2)"
    "memcmp(command,\"get \",4)\nmemcmp(config,\"af\",2)" :=
  ⟨⟨0, by decide +kernel, by decide +kernel⟩,
    ne_of_apply_ne (List.map Command.category) (by decide +kernel)⟩

theorem branchRespacing_tellsApart : branchRespacing.TellsApart
    "GET commands\n\x7d else if (memcmp(command,\"x\",1)\nmemcmp(config,\"af\",2)"
    "GET commands\n\x7d else if (memcmp (command,\"x\",1)\nmemcmp(config,\"af\",2)" :=
  ⟨⟨1, by decide +kernel, by decide +kernel⟩,
    ne_of_apply_ne (List.map Command.category) (by decide +kernel)⟩

theorem replyRespacing_tellsApart : replyRespacing.TellsApart
    "sprintf(reply,\"memcmp(command,\"x\",1)" "sprintf(reply,\"memcmp( command,\"x\",1)" :=
  ⟨⟨0, by decide +kernel, by decide +kernel⟩,
    ne_of_apply_ne (List.map Command.replyFormat) (by decide +kernel)⟩

/-- What other white space can change, on three dispatchers: a test opens no block, a branch leaves
none, and a reply has another format. -/
theorem spacing_told_apart :
    testRespacing.TellsApart
      "memcmp(command, \"get \", 4)\nmemcmp(config,\"af\",2)"
      "memcmp(command,\"get \",4)\nmemcmp(config,\"af\",2)" ∧
    branchRespacing.TellsApart
      "GET commands\n\x7d else if (memcmp(command,\"x\",1)\nmemcmp(config,\"af\",2)"
      "GET commands\n\x7d else if (memcmp (command,\"x\",1)\nmemcmp(config,\"af\",2)" ∧
    replyRespacing.TellsApart
      "sprintf(reply,\"memcmp(command,\"x\",1)" "sprintf(reply,\"memcmp( command,\"x\",1)" :=
  ⟨testRespacing_tellsApart, branchRespacing_tellsApart, replyRespacing_tellsApart⟩

end CliParity.Dispatcher
