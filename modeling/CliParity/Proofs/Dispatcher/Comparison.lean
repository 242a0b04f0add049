import CliParity.Dispatcher.Comparison
import CliParity.Proofs.Text.Blank
import CliParity.Proofs.Text.Occurrence

/-!
# How a comparison is written

`Parts` holds what a comparison says, and a `Spacing` the white space at the places where it is
free. The reader reads exactly the texts that are made of some parts with some spacing
(`read?_eq_some_iff`).

A comparison that starts within another one starts within its literal (`starts_in_literal`). So
whether one starts at a place in front of a comparison does not depend on the spacing of the latter
(`isSome_read?_respaced`). Texts that are `Foreign` to a comparison occur in it within the literal
only (`infix_iff_of_foreign`).
-/

set_option autoImplicit false

namespace CliParity.Dispatcher

open Text

/-! ## Subjects -/

namespace Subject

variable {subject : Subject} {s rest : List Char}

theorem exists_variableName (subject : Subject) :
    ∃ q, subject.variableName.toList = 'c' :: 'o' :: q := by
  cases subject
  · exact ⟨['m', 'm', 'a', 'n', 'd'], rfl⟩
  · exact ⟨['n', 'f', 'i', 'g'], rfl⟩

theorem read?_eq_some_iff :
    read? s = some (subject, rest) ↔ s = subject.variableName.toList ++ rest := by
  have hcommand : after? command.variableName.toList s = none ∨
      after? config.variableName.toList s = none := by
    rw [or_iff_not_imp_left, ← ne_eq, Option.ne_none_iff_exists']
    intro ⟨r, hr⟩
    rw [after?_eq_some_iff.1 hr]
    rfl
  cases subject with
  | command =>
    rw [← after?_eq_some_iff, read?]
    cases h : after? command.variableName.toList s <;> simp
  | config =>
    rw [← after?_eq_some_iff, read?]
    rcases hcommand with h | h
    · simp [h]
    · cases h' : after? command.variableName.toList s <;> simp [h]

theorem read?_of_isBlank (d : Char) (s : List Char) (hd : isBlank d = true) :
    read? (d :: s) = none := by
  refine Option.eq_none_iff_forall_not_mem.2 fun (subject, rest) h => ?_
  obtain ⟨q, hq⟩ := subject.exists_variableName
  have he := read?_eq_some_iff.1 h
  rw [hq] at he
  obtain rfl : d = 'c' := (List.cons.inj he).1
  exact absurd hd (by decide)

end Subject

theorem run?_isDigit_of_isBlank (d : Char) (s : List Char) (hd : isBlank d = true) :
    run? isDigit (d :: s) = none := by
  rw [run?, List.takeWhile_cons, isDigit_of_isBlank hd]
  rfl

namespace Comparison

/-! ## Parts and spacings -/

/-- What a comparison says, with its length argument as written. -/
structure Parts where
  subject : Subject
  literal : List Char
  digits : List Char
  literal_ne_nil : literal ≠ []
  quote_not_mem : '"' ∉ literal
  digits_ne_nil : digits ≠ []
  all_isDigit : digits.all isDigit

/-- The white space in a comparison, by what it stands behind. Around the literal, within its
quotes, there is none. -/
structure Spacing where
  name : Blanks
  opening : Blanks
  subject : Blanks
  comma : Blanks
  literal : Blanks
  secondComma : Blanks
  digits : Blanks

/-- No white space at all. -/
def Spacing.tight : Spacing := ⟨.none, .none, .none, .none, .none, .none, .none⟩

/-- None of the white space has a line feed. -/
def Spacing.OneLine (spacing : Spacing) : Prop :=
  ∀ blanks ∈ [spacing.name, spacing.opening, spacing.subject, spacing.comma, spacing.literal,
    spacing.secondComma, spacing.digits], '\n' ∉ blanks.val

instance (spacing : Spacing) : Decidable spacing.OneLine := List.decidableBAll _ _

namespace Parts

/-- The comparison of these parts. -/
def comparison (parts : Parts) : Comparison :=
  ⟨parts.subject, parts.literal, wordValue? parts.digits⟩

/-- What stands in front of the literal and its quote. -/
def front (parts : Parts) (spacing : Spacing) : List Char :=
  "memcmp".toList ++ (spacing.name.val ++ '(' :: (spacing.opening.val ++
    (parts.subject.variableName.toList ++ (spacing.subject.val ++ ',' :: spacing.comma.val))))

/-- What stands behind the literal and its quote. -/
def back (parts : Parts) (spacing : Spacing) : List Char :=
  spacing.literal.val ++ ',' :: (spacing.secondComma.val ++
    (parts.digits ++ (spacing.digits.val ++ [')'])))

/-- The comparison as written. -/
def text (parts : Parts) (spacing : Spacing) : List Char :=
  parts.front spacing ++ '"' :: (parts.literal ++ '"' :: parts.back spacing)

theorem front_eq (parts : Parts) (spacing : Spacing) :
    parts.front spacing = "memcmp".toList ++ (spacing.name.val ++ '(' :: (spacing.opening.val ++
      (parts.subject.variableName.toList ++ (spacing.subject.val ++ ',' :: spacing.comma.val)))) :=
  rfl

/-- The parts with another literal. -/
def withLiteral (parts : Parts) {literal : List Char} (hne : literal ≠ [])
    (hq : '"' ∉ literal) : Parts :=
  { parts with literal := literal, literal_ne_nil := hne, quote_not_mem := hq }

/-! ## Reading -/

variable (parts : Parts)

theorem run?_literal (s : List Char) :
    run? (· != '"') (parts.literal ++ '"' :: s) = some (parts.literal, '"' :: s) := by
  refine run?_eq_some_iff.2 ⟨parts.literal_ne_nil, ?_, by simp, rfl⟩
  refine List.all_eq_true.2 fun c hc => ?_
  simpa using fun h : c = '"' => parts.quote_not_mem (h ▸ hc)

theorem run?_digits (blanks : Blanks) (s : List Char) :
    run? isDigit (parts.digits ++ (blanks.val ++ ')' :: s)) =
      some (parts.digits, blanks.val ++ ')' :: s) := by
  refine run?_eq_some_iff.2 ⟨parts.digits_ne_nil, parts.all_isDigit, fun c hc => ?_, rfl⟩
  obtain ⟨blanks, hb⟩ := blanks
  cases blanks with
  | nil =>
    obtain rfl : ')' = c := Option.some.inj hc
    decide
  | cons d blanks =>
    obtain rfl : d = c := Option.some.inj hc
    exact isDigit_of_isBlank (List.all_eq_true.1 hb d List.mem_cons_self)

theorem isBlank_head_digits (s : List Char) :
    ∀ c ∈ (parts.digits ++ s).head?, isBlank c = false := by
  obtain ⟨d, digits, hd⟩ := List.exists_cons_of_ne_nil parts.digits_ne_nil
  intro c hc
  rw [hd] at hc
  obtain rfl : d = c := Option.some.inj hc
  rw [← Bool.not_eq_true]
  intro hblank
  have := List.all_eq_true.1 parts.all_isDigit d (hd ▸ List.mem_cons_self)
  simp [isDigit_of_isBlank hblank] at this

end Parts

variable {parts parts' : Parts} {spacing spacing' : Spacing} {s rest : List Char} {c : Comparison}

theorem read?_text (parts : Parts) (spacing : Spacing) (rest : List Char) :
    read? (parts.text spacing ++ rest) = some (parts.comparison, rest) := by
  have hsubject : ∀ s, Subject.read? (skipBlanks (spacing.opening.val ++
      (parts.subject.variableName.toList ++ s))) = some (parts.subject, s) := by
    intro s
    obtain ⟨q, hq⟩ := Subject.exists_variableName parts.subject
    rw [skipBlanks_append _ (by simp [hq, isBlank, inRanges, blankRanges]),
      Subject.read?_eq_some_iff.2 rfl]
  have hdigits : ∀ s, run? isDigit (skipBlanks (spacing.secondComma.val ++
      (parts.digits ++ (spacing.digits.val ++ ')' :: s)))) =
        some (parts.digits, spacing.digits.val ++ ')' :: s) := by
    intro s
    rw [skipBlanks_append _ (parts.isBlank_head_digits _), parts.run?_digits]
  have hquote : ∀ s, after? ['"'] ('"' :: s) = some s := after?_append ['"']
  have hopen : isBlank '(' = false := by decide
  have hcomma : isBlank ',' = false := by decide
  have hclose : isBlank ')' = false := by decide
  have hblank : isBlank '"' = false := by decide
  simp only [Parts.text, Parts.front_eq, Parts.back, List.append_assoc, List.cons_append,
    List.nil_append, read?, readTail?, Option.bind_eq_bind, Option.bind_some, after?_append,
    hsubject, hdigits, hquote, Parts.run?_literal, after?_char _ hopen, after?_char _ hcomma,
    after?_char _ hblank, after?_char _ hclose]
  rfl

theorem exists_text_of_read? (h : read? s = some (c, rest)) :
    ∃ (parts : Parts) (spacing : Spacing),
      s = parts.text spacing ++ rest ∧ c = parts.comparison := by
  obtain ⟨s₁, h₁, h⟩ := Option.bind_eq_some_iff.1 h
  obtain ⟨s₂, h₂, h⟩ := Option.bind_eq_some_iff.1 h
  obtain ⟨⟨subject, s₃⟩, h₃, h⟩ := Option.bind_eq_some_iff.1 h
  obtain ⟨s₄, h₄, h⟩ := Option.bind_eq_some_iff.1 h
  obtain ⟨s₅, h₅, h⟩ := Option.bind_eq_some_iff.1 h
  obtain ⟨⟨literal, s₆⟩, h₆, h⟩ := Option.bind_eq_some_iff.1 h
  obtain ⟨s₇, h₇, h⟩ := Option.bind_eq_some_iff.1 h
  obtain ⟨s₈, h₈, h⟩ := Option.bind_eq_some_iff.1 h
  obtain ⟨⟨digits, s₉⟩, h₉, h⟩ := Option.bind_eq_some_iff.1 h
  obtain ⟨s₁₀, h₁₀, h⟩ := Option.bind_eq_some_iff.1 h
  obtain ⟨rfl, rfl⟩ := Prod.mk.inj (Option.some.inj h)
  obtain rfl := after?_eq_some_iff.1 h₁
  obtain ⟨b₁, rfl⟩ := (after?_skipBlanks_eq_some_iff (by decide)).1 h₂
  obtain ⟨b₂, t, rfl, ht⟩ := (read_skipBlanks_eq_some_iff Subject.read?_of_isBlank).1 h₃
  obtain rfl := Subject.read?_eq_some_iff.1 ht
  obtain ⟨b₃, rfl⟩ := (after?_skipBlanks_eq_some_iff (by decide)).1 h₄
  obtain ⟨b₄, rfl⟩ := (after?_skipBlanks_eq_some_iff (by decide)).1 h₅
  obtain ⟨hliteral, hquote, -, rfl⟩ := run?_eq_some_iff.1 h₆
  obtain rfl := after?_eq_some_iff.1 h₇
  obtain ⟨b₅, rfl⟩ := (after?_skipBlanks_eq_some_iff (by decide)).1 h₈
  obtain ⟨b₆, u, rfl, hu⟩ := (read_skipBlanks_eq_some_iff run?_isDigit_of_isBlank).1 h₉
  obtain ⟨hdigits, hdigit, -, rfl⟩ := run?_eq_some_iff.1 hu
  obtain ⟨b₇, rfl⟩ := (after?_skipBlanks_eq_some_iff (by decide)).1 h₁₀
  have hmem : '"' ∉ literal := fun hq => absurd (List.all_eq_true.1 hquote _ hq) (by simp)
  refine ⟨⟨subject, literal, digits, hliteral, hmem, hdigits, hdigit⟩,
    ⟨b₁, b₂, b₃, b₄, b₅, b₆, b₇⟩, ?_, rfl⟩
  simp [Parts.text, Parts.front_eq, Parts.back]

/-- The reader reads exactly the texts of some parts with some spacing. -/
theorem read?_eq_some_iff : read? s = some (c, rest) ↔
    ∃ (parts : Parts) (spacing : Spacing),
      s = parts.text spacing ++ rest ∧ c = parts.comparison := by
  refine ⟨exists_text_of_read?, ?_⟩
  rintro ⟨parts, spacing, rfl, rfl⟩
  exact read?_text parts spacing rest

/-- A comparison is on one line if its literal and its spacing are. -/
theorem Parts.newline_not_mem_text (parts : Parts) (spacing : Spacing) :
    '\n' ∉ parts.text spacing ↔ '\n' ∉ parts.literal ∧ spacing.OneLine := by
  have hname : '\n' ∉ "memcmp".toList := by decide
  have hsubject : '\n' ∉ parts.subject.variableName.toList := by
    cases parts.subject <;> decide
  have hdigits : '\n' ∉ parts.digits := fun h =>
    absurd (List.all_eq_true.1 parts.all_isDigit _ h) (by decide)
  simp only [text, front_eq, back, Spacing.OneLine, List.mem_append, List.mem_cons, hname, hsubject,
    hdigits, List.not_mem_nil, Char.reduceEq, or_false, false_or, not_or, forall_eq_or_imp,
    forall_eq]
  tauto

/-! ## Characters around the literal -/

/-- The characters between the name of the call and the literal. -/
def isHeadChar (c : Char) : Bool := isBlank c || "(command,config".toList.contains c

/-- The characters behind the literal. -/
def isTailChar (c : Char) : Bool := isBlank c || isDigit c || ",)".toList.contains c

theorem isHeadChar_of_mem_variableName (subject : Subject) :
    ∀ c ∈ subject.variableName.toList, isHeadChar c = true :=
  List.all_eq_true.1 (by cases subject <;> decide)

theorem isHeadChar_of_mem {blanks : Blanks} {d : Char} (hd : d ∈ blanks.val) :
    isHeadChar d = true := by
  simp [isHeadChar, blanks.isBlank_of_mem hd]

theorem isTailChar_of_mem {blanks : Blanks} {d : Char} (hd : d ∈ blanks.val) :
    isTailChar d = true := by
  simp [isTailChar, blanks.isBlank_of_mem hd]

namespace Parts

variable (parts : Parts) (spacing : Spacing)

theorem exists_front_eq : ∃ rest, parts.front spacing = "memcmp".toList ++ rest ∧
    ∀ d ∈ rest, isHeadChar d = true := by
  refine ⟨_, rfl, fun d hd => ?_⟩
  simp only [List.mem_append, List.mem_cons] at hd
  rcases hd with hd | rfl | hd | hd | hd | rfl | hd
  · exact isHeadChar_of_mem hd
  · decide
  · exact isHeadChar_of_mem hd
  · exact isHeadChar_of_mem_variableName parts.subject d hd
  · exact isHeadChar_of_mem hd
  · decide
  · exact isHeadChar_of_mem hd

theorem isTailChar_of_mem_back {d : Char} (hd : d ∈ parts.back spacing) :
    isTailChar d = true := by
  simp only [back, List.mem_append, List.mem_cons, List.not_mem_nil, or_false] at hd
  rcases hd with hd | rfl | hd | hd | hd | rfl
  · exact isTailChar_of_mem hd
  · decide
  · exact isTailChar_of_mem hd
  · simp [isTailChar, List.all_eq_true.1 parts.all_isDigit d hd]
  · exact isTailChar_of_mem hd
  · decide

theorem not_mem_front {d : Char} (hname : d ∉ "memcmp".toList) (hd : isHeadChar d = false) :
    d ∉ parts.front spacing := by
  obtain ⟨rest, hfront, hrest⟩ := parts.exists_front_eq spacing
  rw [hfront, List.mem_append, not_or]
  exact ⟨hname, fun hm => by simp [hrest d hm] at hd⟩

theorem not_mem_back {d : Char} (hd : isTailChar d = false) : d ∉ parts.back spacing :=
  fun hm => by simp [parts.isTailChar_of_mem_back spacing hm] at hd

theorem quote_not_mem_front : '"' ∉ parts.front spacing :=
  parts.not_mem_front spacing (by decide) (by decide)

theorem front_ne_nil : parts.front spacing ≠ [] := List.cons_ne_nil _ _

theorem back_ne_nil : parts.back spacing ≠ [] := by simp [back]

end Parts

/-! ## One comparison within another -/

/-- No comparison starts in front of the literal of another. -/
theorem eq_nil_of_append_front {u : List Char}
    (h : u ++ parts'.front spacing' = parts.front spacing) : u = [] := by
  obtain ⟨rest, hfront, hrest⟩ := parts.exists_front_eq spacing
  obtain ⟨rest', hfront', -⟩ := parts'.exists_front_eq spacing'
  rw [hfront, hfront'] at h
  -- the name has one `e`, which a shifted name would have to repeat
  have hmem : ∀ u : List Char, u ++ ("memcmp".toList ++ rest') ≠ "mcmp".toList ++ rest := by
    intro u he
    have hm : 'e' ∈ "mcmp".toList ++ rest := he ▸ by simp
    rcases List.mem_append.1 hm with hm | hm
    · exact absurd hm (by decide)
    · exact absurd (hrest _ hm) (by decide)
  match u, h with
  | [], _ => rfl
  | [_], h => exact absurd (List.cons.inj (List.cons.inj h).2).1 (by decide)
  | _ :: _ :: u, h => exact absurd (List.cons.inj (List.cons.inj h).2).2 (hmem u)

/-- What starts within a comparison and goes on to a quote starts in front of the literal, within
the literal, or behind it. -/
theorem quoted_start_cases {u z q s after : List Char} (htext : parts.text spacing = u ++ z)
    (hq : '"' ∉ q) (h : z ++ after = q ++ '"' :: s) :
    parts.front spacing = u ++ q ∨
      (∃ v, u = parts.front spacing ++ '"' :: v ∧ parts.literal = v ++ q ∧
        s = parts.back spacing ++ after) ∨
      ∃ w, parts.back spacing = w ++ z := by
  rw [Parts.text] at htext
  have hcut : ∀ {m t : List Char}, '"' ∉ m → z = m ++ '"' :: t → m = q ∧ t ++ after = s := by
    intro m t hm hz
    rw [hz] at h
    exact append_cons_inj hm hq (by simpa using h)
  by_cases hu : '"' ∈ u
  · obtain ⟨u, v, rfl, hfront⟩ := List.eq_append_cons_of_mem hu
    rw [List.append_assoc, List.cons_append] at htext
    obtain ⟨rfl, hv⟩ := append_cons_inj (parts.quote_not_mem_front spacing) hfront htext
    by_cases hqv : '"' ∈ v
    · obtain ⟨v, w, rfl, hliteral⟩ := List.eq_append_cons_of_mem hqv
      rw [List.append_assoc, List.cons_append] at hv
      exact .inr (.inr ⟨w, (append_cons_inj parts.quote_not_mem hliteral hv).2⟩)
    · obtain ⟨m, hm, hz⟩ := eq_append_of_not_mem hqv rfl hv.symm
      obtain ⟨rfl, rfl⟩ := hcut (fun hmem =>
        parts.quote_not_mem (hm ▸ List.mem_append_right v hmem)) hz
      exact .inr (.inl ⟨v, rfl, hm, rfl⟩)
  · obtain ⟨m, hm, hz⟩ := eq_append_of_not_mem hu rfl htext.symm
    obtain ⟨rfl, -⟩ := hcut (fun hmem =>
      parts.quote_not_mem_front spacing (hm ▸ List.mem_append_right u hmem)) hz
    exact .inl hm

/-- A comparison that starts within another starts within its literal. -/
theorem starts_in_literal {u z after : List Char} (htext : parts.text spacing = u ++ z)
    (hu : u ≠ []) (hz : z ≠ []) (h : parts'.text spacing' ++ after = z ++ rest) :
    ∃ v, u = parts.front spacing ++ '"' :: v ∧ parts.literal = v ++ parts'.front spacing' ∧
      parts'.literal ++ '"' :: (parts'.back spacing' ++ after) = parts.back spacing ++ rest := by
  have hquoted : z ++ rest = parts'.front spacing' ++
      '"' :: (parts'.literal ++ '"' :: (parts'.back spacing' ++ after)) := by
    rw [← h, Parts.text]
    simp
  rcases quoted_start_cases htext (parts'.quote_not_mem_front spacing') hquoted with
    hfront | hliteral | ⟨w, hback⟩
  · exact absurd (eq_nil_of_append_front hfront.symm) hu
  · exact hliteral
  · -- behind the literal there is no letter to start with
    obtain ⟨c, z, rfl⟩ := List.exists_cons_of_ne_nil hz
    obtain rfl : c = 'm' := (List.cons.inj hquoted).1
    exact absurd (hback ▸ List.mem_append_right w List.mem_cons_self)
      (parts.not_mem_back spacing (by decide))

/-- Where a comparison is read, one is read whatever the spacing of a comparison behind. -/
theorem isSome_read?_respaced {u after : List Char} (spacing' : Spacing)
    (h : (read? (u ++ (parts.text spacing ++ after))).isSome) :
    (read? (u ++ (parts.text spacing' ++ after))).isSome := by
  obtain ⟨⟨c, rest⟩, hr⟩ := Option.isSome_iff_exists.1 h
  obtain ⟨outer, around, he, -⟩ := read?_eq_some_iff.1 hr
  have hread : ∀ (outer : Parts) (around : Spacing) (k : List Char),
      (read? (outer.text around ++ k)).isSome := fun outer around k => by rw [read?_text]; rfl
  rcases List.append_eq_append_iff.1 he with ⟨z, hz, hrest⟩ | ⟨k, hk, -⟩
  · by_cases hu : u = []
    · exact hu ▸ hread parts spacing' after
    by_cases hnil : z = []
    · obtain rfl : outer.text around = u := by simpa [hnil] using hz
      exact hread outer around _
    -- the comparison behind starts in the literal of the one that is read
    obtain ⟨v, rfl, hliteral, hback⟩ := starts_in_literal hz hu hnil hrest
    obtain ⟨m, hm, -⟩ := eq_append_of_not_mem (outer.not_mem_back around (by decide)) rfl hback.symm
    have hv : '"' ∉ v := fun hq => outer.quote_not_mem (hliteral ▸ List.mem_append_left _ hq)
    have hne : v ++ parts.front spacing' ≠ [] := by simp [parts.front_ne_nil]
    have hq : '"' ∉ v ++ parts.front spacing' := by
      rw [List.mem_append, not_or]
      exact ⟨hv, parts.quote_not_mem_front spacing'⟩
    have htext : outer.front around ++ '"' :: v ++ (parts.text spacing' ++ after) =
        (outer.withLiteral hne hq).text around ++ (m ++ '"' :: (parts.back spacing' ++ after)) := by
      have hfront : (outer.withLiteral hne hq).front around = outer.front around := rfl
      have hback : (outer.withLiteral hne hq).back around = outer.back around := rfl
      have hword : (outer.withLiteral hne hq).literal = v ++ parts.front spacing' := rfl
      simp only [Parts.text, hm, hfront, hback, hword, List.append_assoc, List.cons_append]
    rw [htext]
    exact hread (outer.withLiteral hne hq) around _
  · rw [hk, List.append_assoc]
    exact hread outer around _

/-! ## Other texts around a comparison -/

section
variable {p before after : List Char}

/-- A text without quotes that does not start behind the literal occurs in front of the literal,
within it, or behind the comparison. -/
theorem infix_cases_iff (parts : Parts) (spacing : Spacing) (hq : '"' ∉ p)
    (hp : p.head?.any (!isTailChar ·) = true) :
    p <:+: before ++ (parts.text spacing ++ after) ↔
      p <:+: before ++ parts.front spacing ∨ p <:+: parts.literal ∨ p <:+: after := by
  obtain ⟨c, hc, htail⟩ := (Option.any_eq_true _ _).1 hp
  have htail : isTailChar c = false := by simpa using htail
  have hsplit : before ++ (parts.text spacing ++ after) = (before ++ parts.front spacing) ++
      '"' :: (parts.literal ++ '"' :: (parts.back spacing ++ after)) := by simp [Parts.text]
  rw [hsplit, infix_append_cons_iff hq, infix_append_cons_iff hq,
    infix_append_iff_right ⟨c, hc, parts.not_mem_back spacing htail⟩]

/-- The text occurs in no part of a comparison but its literal: it has no quote, its first character
is not one that stands behind the literal, and from its last `m` on it has a character that does not
stand in front of the literal. -/
def Foreign (p : List Char) : Prop :=
  '"' ∉ p ∧ p.head?.any (!isTailChar ·) = true ∧
    (p.reverse.takeWhile (· != 'm')).any (fun c => !isHeadChar c && !"memcmp".toList.contains c) =
      true

instance (p : List Char) : Decidable (Foreign p) := inferInstanceAs (Decidable (_ ∧ _ ∧ _))

theorem infix_iff_of_foreign (parts : Parts) (spacing : Spacing) (hp : Foreign p) :
    p <:+: before ++ (parts.text spacing ++ after) ↔
      p <:+: before ∨ p <:+: parts.literal ∨ p <:+: after := by
  obtain ⟨hq, hhead, hany⟩ := hp
  obtain ⟨c, hc, hfar⟩ := List.any_eq_true.1 hany
  obtain ⟨hfar, hname⟩ : isHeadChar c = false ∧ c ∉ "memcmp".toList := by
    simpa only [Bool.and_eq_true, Bool.not_eq_true', List.contains_eq_mem,
      decide_eq_false_iff_not] using hfar
  rw [infix_cases_iff parts spacing hq hhead]
  obtain ⟨r, q, hr⟩ := List.append_of_mem hc
  have hsplit : p = (q ++ p.reverse.dropWhile (· != 'm')).reverse ++ c :: r.reverse := by
    have hp := List.takeWhile_append_dropWhile (p := (· != 'm')) (l := p.reverse)
    rw [hr] at hp
    simpa using (congrArg List.reverse hp).symm
  have hm : 'm' ∉ r.reverse := fun hm => by
    have hm := List.mem_takeWhile_imp (hr ▸ List.mem_append_left (c :: q) (List.mem_reverse.1 hm))
    simp at hm
  have hhead : ∀ d ∈ (parts.front spacing).head?, d ∉ r.reverse := by
    intro d hd
    obtain rfl : 'm' = d := Option.some.inj hd
    exact hm
  rw [infix_append_iff_left hsplit (parts.not_mem_front spacing hname hfar) hhead]

end

end Comparison

end CliParity.Dispatcher
