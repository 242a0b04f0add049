import CliParity.Proofs.Dispatcher.Interchange

/-!
# A comparison with other white space

A `Respacing` is a line of which the leftmost comparison is spaced in two ways. Either way it is the
leftmost comparison of the line (`first?_line`), and the line shows the same argument, guards the
serial console or not, and starts another branch or not. So the two lines are interchangeable if and
only if they do the same to the block and show the same reply format (`interchangeable_iff`).
-/

set_option autoImplicit false

namespace CliParity.Dispatcher

open Text

/-- A line of which the leftmost comparison is spaced in two ways. -/
structure Respacing where
  /-- What stands in front of the comparison. -/
  before : List Char
  parts : Comparison.Parts
  spacing : Comparison.Spacing
  spacing' : Comparison.Spacing
  /-- What stands behind the comparison. -/
  after : List Char
  leftmost : ∀ u, u <:+ before → u ≠ [] →
    Comparison.read? (u ++ (parts.text spacing ++ after)) = none
  newline_not_mem : '\n' ∉ before ++ (parts.text spacing ++ after)
  oneLine' : spacing'.OneLine

namespace Respacing

/-- The line as it is spaced first. -/
def line (r : Respacing) : List Char := r.before ++ (r.parts.text r.spacing ++ r.after)

/-- The same two spacings the other way round. -/
def symm (r : Respacing) : Respacing where
  before := r.before
  parts := r.parts
  spacing := r.spacing'
  spacing' := r.spacing
  after := r.after
  leftmost u hu hne := by
    refine Option.eq_none_iff_forall_not_mem.2 fun m hm => ?_
    have hs := Comparison.isSome_read?_respaced r.spacing (Option.isSome_of_mem hm)
    rw [r.leftmost u hu hne] at hs
    cases hs
  newline_not_mem := by
    have h := r.newline_not_mem
    simp only [List.mem_append, not_or, Comparison.Parts.newline_not_mem_text] at h ⊢
    exact ⟨h.1, ⟨h.2.1.1, r.oneLine'⟩, h.2.2⟩
  oneLine' := by
    have h := r.newline_not_mem
    simp only [List.mem_append, not_or, Comparison.Parts.newline_not_mem_text] at h
    exact h.2.1.2

/-- The line as it is spaced then. -/
def line' (r : Respacing) : List Char := r.symm.line

end Respacing

/-- The leftmost comparison of a line may be spaced in any other way. -/
theorem exists_respacing {line : List Char} {comparison : Comparison} (hl : '\n' ∉ line)
    (h : Comparison.first? line = some comparison) {spacing' : Comparison.Spacing}
    (hs : spacing'.OneLine) :
    ∃ r : Respacing, r.line = line ∧ r.parts.comparison = comparison ∧ r.spacing' = spacing' := by
  obtain ⟨before, t, after, rfl, hr, hleft⟩ := exists_of_firstMatch? h
  obtain ⟨parts, spacing, rfl, rfl⟩ := Comparison.read?_eq_some_iff.1 hr
  exact ⟨⟨before, parts, spacing, spacing', after, hleft, hl, hs⟩, rfl, rfl, rfl⟩

/-! ## Guards -/

/-- A guard for the serial console. -/
def guardText (blanks blanks' : Blanks) : List Char :=
  "sender_timestamp".toList ++ (blanks.val ++ ("==".toList ++ (blanks'.val ++ ['0'])))

theorem guardText_eq (blanks blanks' : Blanks) : guardText blanks blanks' =
    "sender_timestamp".toList ++ (blanks.val ++ ("==".toList ++ (blanks'.val ++ ['0']))) := rfl

theorem isSome_readSerialGuard?_iff {s : List Char} :
    (readSerialGuard? s).isSome ↔ ∃ blanks blanks', guardText blanks blanks' <+: s := by
  constructor
  · intro h
    obtain ⟨⟨_, rest⟩, h⟩ := Option.isSome_iff_exists.1 h
    obtain ⟨s₁, h₁, h⟩ := Option.bind_eq_some_iff.1 h
    obtain ⟨s₂, h₂, h⟩ := Option.bind_eq_some_iff.1 h
    obtain ⟨s₃, h₃, -⟩ := Option.bind_eq_some_iff.1 h
    obtain rfl := after?_eq_some_iff.1 h₁
    obtain ⟨b₁, rfl⟩ := (after?_skipBlanks_eq_some_iff (by decide)).1 h₂
    obtain ⟨b₂, rfl⟩ := (after?_skipBlanks_eq_some_iff (by decide)).1 h₃
    exact ⟨b₁, b₂, s₃, by simp [guardText_eq]⟩
  · rintro ⟨b₁, b₂, rest, rfl⟩
    have hequal : ∀ s, after? "==".toList (skipBlanks (b₁.val ++ ("==".toList ++ s))) = some s :=
      fun s => (after?_skipBlanks_eq_some_iff (by decide)).2 ⟨b₁, rfl⟩
    have hzero : ∀ s, after? ['0'] (skipBlanks (b₂.val ++ ('0' :: s))) = some s :=
      fun s => after?_char b₂ (by decide)
    simp only [guardText_eq, List.append_assoc, List.cons_append, List.nil_append, readSerialGuard?,
      Option.bind_eq_bind, Option.bind_some, after?_append, hequal, hzero]
    rfl

theorem guardsSerial_iff {line : List Char} :
    guardsSerial line ↔ ∃ blanks blanks', guardText blanks blanks' <:+: line := by
  rw [guardsSerial, firstMatch?_isSome_iff]
  constructor
  · rintro ⟨t, ht, -, hm⟩
    obtain ⟨b₁, b₂, hguard⟩ := isSome_readSerialGuard?_iff.1 hm
    exact ⟨b₁, b₂, hguard.isInfix.trans ht.isInfix⟩
  · rintro ⟨b₁, b₂, a, b, rfl⟩
    refine ⟨guardText b₁ b₂ ++ b, ⟨a, (List.append_assoc _ _ _).symm⟩, List.cons_ne_nil _ _, ?_⟩
    exact isSome_readSerialGuard?_iff.2 ⟨b₁, b₂, List.prefix_append _ _⟩

/-- A guard begins with a letter that no part of a comparison has, and ends in a zero. -/
theorem foreign_guardText (blanks blanks' : Blanks) :
    Comparison.Foreign (guardText blanks blanks') := by
  have hblank : ∀ blanks : Blanks, '"' ∉ blanks.val := fun blanks h =>
    absurd (blanks.isBlank_of_mem h) (by decide)
  have hhead : (guardText blanks blanks').head? = some 's' := rfl
  refine ⟨by simp [guardText_eq, hblank], ?_,
    List.any_eq_true.2 ⟨'0', by simp [guardText_eq], by decide⟩⟩
  rw [hhead]
  decide

/-! ## Other branches -/

/-- Whether a line starts another branch is told in front of its first `m`. -/
theorem startsElse_append_cons (before rest : List Char) :
    startsElse (before ++ 'm' :: rest) ↔ "\x7d else".toList <+: trimStart before := by
  have hsplit : "\x7d else".toList = "\x7d els".toList ++ ['e'] := by decide
  have hm : ∀ c ∈ ('m' :: rest).head?, isBlank c = false := by simp [isBlank, inRanges, blankRanges]
  rw [startsElse, List.isPrefixOf_iff_prefix, trim, hsplit, prefix_trimEnd_iff (by decide),
    trimStart, dropWhile_append_of_head hm, prefix_append_cons_iff (by decide), ← trimStart]

/-! ## Both spacings -/

namespace Respacing

variable (r : Respacing)

theorem first?_line : Comparison.first? r.line = some r.parts.comparison := by
  rw [line, Comparison.first?, firstMatch?_append_of_none r.leftmost]
  exact firstMatch?_of_read (List.cons_ne_nil _ _)
    (Comparison.read?_text r.parts r.spacing r.after)

theorem first?_line' : Comparison.first? r.line' = some r.parts.comparison :=
  r.symm.first?_line

/-- A foreign text occurs in both lines or in neither. -/
theorem contains_of_foreign {p : List Char} (hp : Comparison.Foreign p) :
    contains r.line p = contains r.line' p := by
  rw [Bool.eq_iff_iff, contains_iff, contains_iff]
  exact (Comparison.infix_iff_of_foreign r.parts r.spacing hp).trans
    (Comparison.infix_iff_of_foreign r.parts r.spacing' hp).symm

theorem argumentType?_line : argumentType? r.line = argumentType? r.line' := by
  simp (disch := decide) only [argumentType?, conversionCalls, List.find?_cons, List.find?_nil,
    r.contains_of_foreign]

theorem guardsSerial_line : guardsSerial r.line = guardsSerial r.line' := by
  rw [Bool.eq_iff_iff, guardsSerial_iff, guardsSerial_iff]
  refine exists_congr fun blanks => exists_congr fun blanks' => ?_
  rw [← contains_iff, ← contains_iff, r.contains_of_foreign (foreign_guardText blanks blanks')]

theorem startsElse_line : startsElse r.line = startsElse r.line' := by
  rw [Bool.eq_iff_iff]
  exact (startsElse_append_cons r.before _).trans (startsElse_append_cons r.before _).symm

/-- The two lines act alike if they do the same to the block and show the same format. -/
theorem actsAlike
    (hblock : ∀ block, Context.blockAt block r.line = Context.blockAt block r.line')
    (hformat : format? r.line = format? r.line') : ActsAlike r.line r.line' where
  comparison := r.first?_line.trans r.first?_line'.symm
  format := hformat
  argument := r.argumentType?_line
  enter context := by rw [Context.enter, Context.enter, hblock, r.guardsSerial_line]
  leave context := by rw [Context.leave, Context.leave, r.startsElse_line]

/-- A comparison may be spaced otherwise in every dispatcher if and only if this changes neither
what its line does to the block nor the reply format that it shows. -/
theorem interchangeable_iff : Interchangeable r.line r.line' ↔
    (∀ block, Context.blockAt block r.line = Context.blockAt block r.line') ∧
      format? r.line = format? r.line' :=
  ⟨fun h => h.shown r.newline_not_mem r.symm.newline_not_mem r.first?_line r.first?_line',
    fun ⟨hblock, hformat⟩ => (r.actsAlike hblock hformat).interchangeable⟩

end Respacing

end CliParity.Dispatcher
