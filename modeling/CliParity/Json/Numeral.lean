import CliParity.Text.Digit
import CliParity.Text.Scan

/-!
# JSON numbers

A number is read as it is written, by the grammar: a sign, an integer part without a leading zero, a
fraction, an exponent. No value is computed here: what reads a document decides which numerals it
takes.
-/

set_option autoImplicit false

namespace CliParity.Json.Numeral

open Text

/-- A part of a numeral and the rest of the text. -/
abbrev Part := List Char × List Char

/-- The optional sign. -/
def sign : List Char → Part
  | '-' :: s => (['-'], s)
  | s => ([], s)

/-- The integer part: a zero, or digits that do not start with one. -/
def integer? : List Char → Option Part
  | '0' :: s => some (['0'], s)
  | s => run? isAsciiDigit s

/-- The optional fraction: a point and at least one digit. -/
def fraction? : List Char → Option Part
  | '.' :: s => (run? isAsciiDigit s).map fun (digits, rest) => ('.' :: digits, rest)
  | s => some ([], s)

/-- The sign of an exponent. -/
def exponentSign : List Char → Part
  | '+' :: s => (['+'], s)
  | '-' :: s => (['-'], s)
  | s => ([], s)

/-- The digits of an exponent, with its letter and sign. -/
def exponentTail? (letter : Char) (s : List Char) : Option Part :=
  (run? isAsciiDigit (exponentSign s).2).map fun (digits, rest) =>
    (letter :: (exponentSign s).1 ++ digits, rest)

/-- The optional exponent: a letter, a sign if any, and at least one digit. -/
def exponent? : List Char → Option Part
  | 'e' :: s => exponentTail? 'e' s
  | 'E' :: s => exponentTail? 'E' s
  | s => some ([], s)

/-- Reads a numeral: it as written, and the rest. -/
def read? (s : List Char) : Option (String × List Char) := do
  let (whole, rest) ← integer? (sign s).2
  let (part, rest) ← fraction? rest
  let (scale, rest) ← exponent? rest
  return (String.ofList ((sign s).1 ++ whole ++ part ++ scale), rest)

theorem length_sign_le (s : List Char) : (sign s).2.length ≤ s.length := by
  unfold sign
  split <;> simp

theorem length_exponentSign_le (s : List Char) : (exponentSign s).2.length ≤ s.length := by
  unfold exponentSign
  split <;> simp

theorem length_of_integer? {s taken rest : List Char} (h : integer? s = some (taken, rest)) :
    rest.length < s.length := by
  unfold integer? at h
  split at h
  · obtain ⟨-, rfl⟩ := Prod.mk.injEq .. ▸ Option.some.injEq .. ▸ h
    simp
  · exact length_of_run? h

theorem length_of_fraction? {s taken rest : List Char} (h : fraction? s = some (taken, rest)) :
    rest.length ≤ s.length := by
  unfold fraction? at h
  split at h
  · obtain ⟨⟨ds, r⟩, hr, he⟩ := Option.map_eq_some_iff.1 h
    obtain ⟨-, rfl⟩ := Prod.mk.injEq .. ▸ he
    have := length_of_run? hr
    simp only [List.length_cons]
    omega
  · obtain ⟨-, rfl⟩ := Prod.mk.injEq .. ▸ Option.some.injEq .. ▸ h
    exact Nat.le_refl _

theorem length_of_exponentTail? {letter : Char} {s taken rest : List Char}
    (h : exponentTail? letter s = some (taken, rest)) : rest.length ≤ s.length := by
  obtain ⟨⟨ds, r⟩, hr, he⟩ := Option.map_eq_some_iff.1 h
  obtain ⟨-, rfl⟩ := Prod.mk.injEq .. ▸ he
  have h₁ := length_of_run? hr
  have h₂ := length_exponentSign_le s
  omega

theorem length_of_exponent? {s taken rest : List Char} (h : exponent? s = some (taken, rest)) :
    rest.length ≤ s.length := by
  unfold exponent? at h
  split at h
  · have := length_of_exponentTail? h; simp only [List.length_cons]; omega
  · have := length_of_exponentTail? h; simp only [List.length_cons]; omega
  · obtain ⟨-, rfl⟩ := Prod.mk.injEq .. ▸ Option.some.injEq .. ▸ h
    exact Nat.le_refl _

theorem length_of_read? {s rest : List Char} {numeral : String}
    (h : read? s = some (numeral, rest)) : rest.length < s.length := by
  simp only [read?, Option.bind_eq_bind, Option.bind_eq_some_iff, Prod.exists, Option.pure_def,
    Option.some.injEq, Prod.mk.injEq] at h
  obtain ⟨w, s₁, h₁, f, s₂, h₂, e, s₃, h₃, -, rfl⟩ := h
  have l₀ := length_sign_le s
  have l₁ := length_of_integer? h₁
  have l₂ := length_of_fraction? h₂
  have l₃ := length_of_exponent? h₃
  omega

end CliParity.Json.Numeral
