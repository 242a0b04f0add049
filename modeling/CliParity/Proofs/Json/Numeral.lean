import CliParity.Json.Numeral
import CliParity.Proofs.Text.Blank

/-!
# How numbers are written

`IsNumeral` is the grammar of numbers. A text is read as a number, all of it, exactly if it is in
the grammar (`read?_eq_self_iff`). A numeral ends in front of a character that could not go on with
it (`Ends`), so it is read alike whatever comes then (`read?_append`). The decimal digits of a
natural number are a numeral (`isNumeral_toDigits`).
-/

set_option autoImplicit false

namespace CliParity.Json.Numeral

open Text

/-- The character may go on with a numeral. -/
def continues (c : Char) : Bool := isAsciiDigit c || c = '.' || c = 'e' || c = 'E'

/-- No numeral goes on into the text. -/
def Ends (s : List Char) : Prop := ∀ c ∈ s.head?, continues c = false

theorem ends_nil : Ends [] := fun c hc => by cases hc

theorem ends_cons {c : Char} (h : continues c = false) (s : List Char) : Ends (c :: s) := by
  intro d hd
  obtain rfl : c = d := Option.some.inj hd
  exact h

section
variable {s taken r rest : List Char}

theorem Ends.not_digit (h : Ends rest) : ∀ c ∈ rest.head?, isAsciiDigit c = false := by
  intro c hc
  have := h c hc
  simp only [continues, Bool.or_eq_false_iff] at this
  exact this.1.1.1

theorem sign_append (hs : s ≠ []) (rest : List Char) :
    sign (s ++ rest) = ((sign s).1, (sign s).2 ++ rest) := by
  obtain ⟨c, s, rfl⟩ := List.exists_cons_of_ne_nil hs
  by_cases hc : c = '-'
  · subst hc
    rfl
  · simp [sign, hc]

theorem exponentSign_append (hs : s ≠ []) (rest : List Char) :
    exponentSign (s ++ rest) = ((exponentSign s).1, (exponentSign s).2 ++ rest) := by
  obtain ⟨c, s, rfl⟩ := List.exists_cons_of_ne_nil hs
  by_cases hp : c = '+'
  · subst hp
    rfl
  by_cases hm : c = '-'
  · subst hm
    rfl
  · simp [exponentSign, hp, hm]

theorem integer?_append (he : Ends rest) (h : integer? s = some (taken, r)) :
    integer? (s ++ rest) = some (taken, r ++ rest) := by
  rw [integer?.eq_def] at h
  split at h
  · obtain ⟨rfl, rfl⟩ := Prod.mk.inj (Option.some.inj h)
    rfl
  · rename_i hz
    have hr := run?_append h he.not_digit
    cases s with
    | nil => cases h
    | cons c s =>
      have hc : c ≠ '0' := fun hc => hz s (hc ▸ rfl)
      rw [List.cons_append, integer?]
      · exact hr
      · simpa using hc

theorem fraction?_append (he : Ends rest) (h : fraction? s = some (taken, r)) :
    fraction? (s ++ rest) = some (taken, r ++ rest) := by
  rw [fraction?.eq_def] at h
  split at h
  · obtain ⟨⟨digits, t⟩, hr, hd⟩ := Option.map_eq_some_iff.1 h
    obtain ⟨rfl, rfl⟩ := Prod.mk.inj hd
    rw [List.cons_append, fraction?, run?_append hr he.not_digit, Option.map_some]
  · rename_i hp
    obtain ⟨rfl, rfl⟩ := Prod.mk.inj (Option.some.inj h)
    rw [fraction?]
    rintro t ht
    cases s with
    | nil => simp [Ends, show rest = _ from ht, continues] at he
    | cons c s => exact hp s (by simp_all)

theorem exponentTail?_append {letter : Char} (he : Ends rest)
    (h : exponentTail? letter s = some (taken, r)) :
    exponentTail? letter (s ++ rest) = some (taken, r ++ rest) := by
  obtain ⟨⟨digits, t⟩, hr, hd⟩ := Option.map_eq_some_iff.1 h
  obtain ⟨rfl, rfl⟩ := Prod.mk.inj hd
  have hs : s ≠ [] := by
    rintro rfl
    cases hr
  rw [exponentTail?, exponentSign_append hs, run?_append hr he.not_digit, Option.map_some]

theorem exponent?_append (he : Ends rest) (h : exponent? s = some (taken, r)) :
    exponent? (s ++ rest) = some (taken, r ++ rest) := by
  rw [exponent?.eq_def] at h
  split at h
  · exact exponentTail?_append he h
  · exact exponentTail?_append he h
  · rename_i h₁ h₂
    obtain ⟨rfl, rfl⟩ := Prod.mk.inj (Option.some.inj h)
    cases s with
    | nil =>
      cases rest with
      | nil => rfl
      | cons c rest =>
        have hc : c ≠ 'e' ∧ c ≠ 'E' := by
          have := he c rfl
          simp_all [continues]
        simp [exponent?, hc]
    | cons c s =>
      have hc : c ≠ 'e' ∧ c ≠ 'E' := ⟨fun hc => h₁ s (hc ▸ rfl), fun hc => h₂ s (hc ▸ rfl)⟩
      simp [exponent?, hc]

/-- A numeral is read alike in front of any text that does not go on with it. -/
theorem read?_append {numeral : String} (he : Ends rest) (h : read? s = some (numeral, r)) :
    read? (s ++ rest) = some (numeral, r ++ rest) := by
  simp only [read?, Option.bind_eq_bind, Option.bind_eq_some_iff, Prod.exists, Option.pure_def,
    Option.some.injEq, Prod.mk.injEq] at h
  obtain ⟨w, s₁, h₁, f, s₂, h₂, e, s₃, h₃, rfl, rfl⟩ := h
  have hs : s ≠ [] := by
    rintro rfl
    cases h₁
  simp only [read?, sign_append hs, integer?_append he h₁, fraction?_append he h₂,
    exponent?_append he h₃, Option.bind_eq_bind, Option.bind_some, Option.pure_def]

end

/-! ## The grammar -/

/-- Digits, one at least. -/
structure IsDigits (w : List Char) : Prop where
  ne_nil : w ≠ []
  all_digit : w.all isAsciiDigit

/-- A zero, or digits that do not begin with one. -/
inductive IsInteger : List Char → Prop
  | zero : IsInteger ['0']
  | digits {w : List Char} : IsDigits w → w.head? ≠ some '0' → IsInteger w

/-- Nothing, or a point and digits. -/
inductive IsFraction : List Char → Prop
  | none : IsFraction []
  | digits {w : List Char} : IsDigits w → IsFraction ('.' :: w)

/-- Nothing, or a letter, a sign or none, and digits. -/
inductive IsExponent : List Char → Prop
  | none : IsExponent []
  | digits {letter : Char} {sign w : List Char} : letter ∈ ['e', 'E'] →
      sign ∈ [[], ['+'], ['-']] → IsDigits w → IsExponent (letter :: (sign ++ w))

/-- The text is a number: a minus sign or none, an integer part, a fraction and an exponent. -/
def IsNumeral (w : List Char) : Prop :=
  ∃ sign whole part scale, sign ∈ [[], ['-']] ∧ IsInteger whole ∧ IsFraction part ∧
    IsExponent scale ∧ w = sign ++ whole ++ part ++ scale

section
variable {s w taken rest : List Char}

theorem isDigits_of_run? (h : run? isAsciiDigit s = some (taken, rest)) : IsDigits taken :=
  ⟨(run?_eq_some_iff.1 h).1, (run?_eq_some_iff.1 h).2.1⟩

theorem IsDigits.run?_append (h : IsDigits w)
    (hr : ∀ c ∈ rest.head?, isAsciiDigit c = false) :
    run? isAsciiDigit (w ++ rest) = some (w, rest) :=
  run?_eq_some_iff.2 ⟨h.ne_nil, h.all_digit, hr, rfl⟩

theorem IsDigits.exists_cons (h : IsDigits w) : ∃ d t, w = d :: t ∧ isAsciiDigit d = true := by
  obtain ⟨d, t, rfl⟩ := List.exists_cons_of_ne_nil h.ne_nil
  exact ⟨d, t, rfl, List.all_eq_true.1 h.all_digit d List.mem_cons_self⟩

theorem IsInteger.exists_cons (h : IsInteger w) : ∃ d t, w = d :: t ∧ isAsciiDigit d = true := by
  cases h with
  | zero => exact ⟨'0', [], rfl, rfl⟩
  | digits h _ => exact h.exists_cons

/-! ## What is read is in the grammar -/

theorem isInteger_of_integer? (h : integer? s = some (taken, rest)) : IsInteger taken := by
  rw [integer?.eq_def] at h
  split at h
  · obtain ⟨rfl, -⟩ := Prod.mk.inj (Option.some.inj h)
    exact .zero
  · rename_i hz
    obtain ⟨hne, -, -, rfl⟩ := run?_eq_some_iff.1 h
    refine .digits (isDigits_of_run? h) fun hhead => ?_
    obtain ⟨t, rfl⟩ := List.head?_eq_some_iff.1 hhead
    exact hz (t ++ rest) rfl

theorem isFraction_of_fraction? (h : fraction? s = some (taken, rest)) : IsFraction taken := by
  rw [fraction?.eq_def] at h
  split at h
  · obtain ⟨⟨digits, t⟩, hr, hd⟩ := Option.map_eq_some_iff.1 h
    obtain ⟨rfl, -⟩ := Prod.mk.inj hd
    exact .digits (isDigits_of_run? hr)
  · obtain ⟨rfl, -⟩ := Prod.mk.inj (Option.some.inj h)
    exact .none

theorem isExponent_of_exponentTail? {letter : Char} (hl : letter ∈ ['e', 'E'])
    (h : exponentTail? letter s = some (taken, rest)) : IsExponent taken := by
  obtain ⟨⟨digits, t⟩, hr, hd⟩ := Option.map_eq_some_iff.1 h
  obtain ⟨rfl, -⟩ := Prod.mk.inj hd
  refine .digits hl ?_ (isDigits_of_run? hr)
  rw [exponentSign.eq_def]
  split <;> simp

theorem isExponent_of_exponent? (h : exponent? s = some (taken, rest)) : IsExponent taken := by
  rw [exponent?.eq_def] at h
  split at h
  · exact isExponent_of_exponentTail? (by simp) h
  · exact isExponent_of_exponentTail? (by simp) h
  · obtain ⟨rfl, -⟩ := Prod.mk.inj (Option.some.inj h)
    exact .none

theorem isNumeral_of_read? {numeral : String} (h : read? s = some (numeral, rest)) :
    IsNumeral numeral.toList := by
  simp only [read?, Option.bind_eq_bind, Option.bind_eq_some_iff, Prod.exists, Option.pure_def,
    Option.some.injEq, Prod.mk.injEq] at h
  obtain ⟨w, s₁, h₁, f, s₂, h₂, e, s₃, h₃, rfl, -⟩ := h
  refine ⟨(sign s).1, w, f, e, ?_, isInteger_of_integer? h₁, isFraction_of_fraction? h₂,
    isExponent_of_exponent? h₃, String.toList_ofList⟩
  rw [sign.eq_def]
  split <;> simp

/-! ## What is in the grammar is read -/

theorem IsExponent.exponent?_eq (h : IsExponent w) : exponent? w = some (w, []) := by
  cases h with
  | none => rfl
  | @digits letter sign w hl hs hw =>
    obtain ⟨d, t, rfl, hd⟩ := hw.exists_cons
    have hplus : d ≠ '+' := by rintro rfl; cases hd
    have hminus : d ≠ '-' := by rintro rfl; cases hd
    have hrun : run? isAsciiDigit (d :: t ++ []) = some (d :: t, []) := hw.run?_append (by simp)
    have hsign : exponentSign (sign ++ d :: t) = (sign, d :: t) := by
      simp only [List.mem_cons, List.not_mem_nil, or_false] at hs
      rcases hs with rfl | rfl | rfl <;> simp [exponentSign, hplus, hminus]
    rw [List.append_nil] at hrun
    simp only [List.mem_cons, List.not_mem_nil, or_false] at hl
    rcases hl with rfl | rfl <;> simp [exponent?, exponentTail?, hsign, hrun]

/-- An exponent does not go on with digits, nor with a fraction. -/
theorem IsExponent.head (h : IsExponent w) :
    ∀ c ∈ w.head?, isAsciiDigit c = false ∧ c ≠ '.' := by
  cases h with
  | none => simp
  | digits hl =>
    simp only [List.mem_cons, List.not_mem_nil, or_false] at hl
    rcases hl with rfl | rfl <;> simp [isAsciiDigit]

theorem IsFraction.fraction?_append (h : IsFraction w) (hr : IsExponent rest) :
    fraction? (w ++ rest) = some (w, rest) := by
  cases h with
  | none =>
    rw [List.nil_append, fraction?]
    rintro t rfl
    exact (hr.head '.' rfl).2 rfl
  | digits hw =>
    rw [List.cons_append, fraction?, hw.run?_append fun c hc => (hr.head c hc).1, Option.map_some]

theorem IsFraction.head (h : IsFraction w) (hr : IsExponent rest) :
    ∀ c ∈ (w ++ rest).head?, isAsciiDigit c = false := by
  cases h with
  | none => exact fun c hc => (hr.head c hc).1
  | digits => simp [isAsciiDigit]

theorem IsInteger.integer?_append (h : IsInteger w)
    (hr : ∀ c ∈ rest.head?, isAsciiDigit c = false) : integer? (w ++ rest) = some (w, rest) := by
  cases h with
  | zero => rfl
  | digits hw hz =>
    rw [integer?, hw.run?_append hr]
    intro t ht
    obtain ⟨d, u, rfl⟩ := List.exists_cons_of_ne_nil hw.ne_nil
    exact hz (congrArg some (List.cons.inj ht).1)

/-- A number is read, all of it. -/
theorem read?_of_isNumeral (h : IsNumeral w) : read? w = some (String.ofList w, []) := by
  obtain ⟨sg, whole, part, scale, hs, hwhole, hpart, hscale, rfl⟩ := h
  have hsign : sign (sg ++ (whole ++ (part ++ scale))) = (sg, whole ++ (part ++ scale)) := by
    obtain ⟨d, t, rfl, hd⟩ := hwhole.exists_cons
    have hminus : d ≠ '-' := by rintro rfl; cases hd
    simp only [List.mem_cons, List.not_mem_nil, or_false] at hs
    rcases hs with rfl | rfl <;> simp [sign, hminus]
  simp only [read?, List.append_assoc, hsign, hwhole.integer?_append (hpart.head hscale),
    hpart.fraction?_append hscale, hscale.exponent?_eq, Option.bind_eq_bind, Option.bind_some,
    Option.pure_def]

/-- The numbers that are read as they stand are those of the grammar. -/
theorem read?_eq_self_iff {numeral : String} :
    read? numeral.toList = some (numeral, []) ↔ IsNumeral numeral.toList := by
  refine ⟨isNumeral_of_read?, fun h => ?_⟩
  rw [read?_of_isNumeral h, String.ofList_toList]

end

/-! ## Natural numbers -/

theorem isAsciiDigit_eq (c : Char) : isAsciiDigit c = c.isDigit := by
  simp only [isAsciiDigit, Char.isDigit, Char.le_def]

theorem isAsciiDigit_of_mem_toDigits {n : Nat} {c : Char} (h : c ∈ Nat.toDigits 10 n) :
    isAsciiDigit c = true :=
  isAsciiDigit_eq c ▸ Nat.isDigit_of_mem_toDigits (by decide) (by decide) h

/-- Only zero is written with a leading zero. -/
theorem head?_toDigits {n : Nat} (hn : n ≠ 0) : (Nat.toDigits 10 n).head? ≠ some '0' := by
  induction n using Nat.strongRecOn with
  | ind n ih =>
    rw [Nat.toDigits_eq_if (by decide)]
    split
    · simpa using hn
    · have hq := ih (n / 10) (by omega) (by omega)
      rw [List.head?_append]
      cases hd : (Nat.toDigits 10 (n / 10)).head? with
      | none => exact absurd (List.head?_eq_none_iff.1 hd) Nat.toDigits_ne_nil
      | some d => simpa [hd] using hq

theorem all_isAsciiDigit_toDigits (n : Nat) : (Nat.toDigits 10 n).all isAsciiDigit = true :=
  List.all_eq_true.2 fun _ => isAsciiDigit_of_mem_toDigits

/-- The digits of a natural number are a numeral. -/
theorem isNumeral_toDigits (n : Nat) : IsNumeral (Nat.toDigits 10 n) := by
  have hwhole : IsInteger (Nat.toDigits 10 n) := by
    by_cases hn : n = 0
    · subst hn
      exact .zero
    · exact .digits ⟨Nat.toDigits_ne_nil, all_isAsciiDigit_toDigits n⟩ (head?_toDigits hn)
  exact ⟨[], _, [], [], List.mem_cons_self, hwhole, .none, .none, by simp⟩

/-- The digits of a number that fits a machine word have its value. -/
theorem wordValue?_toDigits {n : Nat} (h : n < wordLimit) :
    wordValue? (Nat.toDigits 10 n) = some n := by
  simp [wordValue?, all_isAsciiDigit_toDigits, Nat.ofDigitChars_ten_toDigits, h,
    Nat.toDigits_ne_nil]

end CliParity.Json.Numeral
