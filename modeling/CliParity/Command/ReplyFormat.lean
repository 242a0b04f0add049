import CliParity.Text.Digit
import CliParity.Text.Scan

/-!
# Reply formats

A reply is written by the node from a template with conversions such as `%d` or `%.2f`. The
published format names the kind of value instead: `replyFormat` replaces each conversion by its
placeholder, one kind of conversion after the other.
-/

set_option autoImplicit false

namespace CliParity

open Text

/-- The kinds of conversion in a reply template. -/
inductive Conversion
  /-- `%d`, with an optional `0` and an optional width `2`. -/
  | int
  /-- `%s`. -/
  | str
  /-- `%u`. -/
  | uint
  /-- `%f`, with an optional width, an optional precision and an optional `l`. -/
  | float
  deriving DecidableEq, Repr

namespace Conversion

/-- The placeholder that stands for a value of this kind. -/
def placeholder : Conversion → String
  | int => "\x7bint\x7d"
  | str => "\x7bstr\x7d"
  | uint => "\x7buint\x7d"
  | float => "\x7bfloat\x7d"

/-- The rest of a text after a precision in front, a point and digits, if there is one. -/
def skipPrecision : List Char → List Char
  | [] => []
  | c :: s => if c = '.' then s.dropWhile isDigit else c :: s

/-- The rest after what follows the `%` of a conversion. -/
def tail? : Conversion → List Char → Option (List Char)
  | int, s => after? ['d'] (skipOptional '2' (skipOptional '0' s))
  | str, s => after? ['s'] s
  | uint, s => after? ['u'] s
  | float, s => after? ['f'] (skipOptional 'l' (skipPrecision (s.dropWhile isDigit)))

/-- The rest after a conversion of this kind in front of `s`. -/
def read? (kind : Conversion) (s : List Char) : Option (List Char) :=
  (after? ['%'] s).bind kind.tail?

theorem length_skipPrecision_le (s : List Char) : (skipPrecision s).length ≤ s.length := by
  cases s with
  | nil => simp [skipPrecision]
  | cons c s =>
    rw [skipPrecision]
    split
    · exact Nat.le_succ_of_le (List.dropWhile_sublist _).length_le
    · exact Nat.le_refl _

theorem length_of_tail? {kind : Conversion} {s rest : List Char} (h : kind.tail? s = some rest) :
    rest.length < s.length := by
  cases kind with
  | int =>
    have h₁ := length_of_after? h
    have h₂ := length_skipOptional_le '2' (skipOptional '0' s)
    have h₃ := length_skipOptional_le '0' s
    simp only [List.length_cons, List.length_nil] at h₁
    omega
  | str => have := length_of_after? h; simp only [List.length_cons] at this; omega
  | uint => have := length_of_after? h; simp only [List.length_cons] at this; omega
  | float =>
    have h₁ := length_of_after? h
    have h₂ := length_skipOptional_le 'l' (skipPrecision (s.dropWhile isDigit))
    have h₃ := length_skipPrecision_le (s.dropWhile isDigit)
    have h₄ := (List.dropWhile_sublist isDigit (l := s)).length_le
    simp only [List.length_cons, List.length_nil] at h₁
    omega

theorem length_of_read? {kind : Conversion} {s rest : List Char} (h : kind.read? s = some rest) :
    rest.length < s.length := by
  obtain ⟨t, ht, hr⟩ := Option.bind_eq_some_iff.1 h
  have h₁ := length_of_after? ht
  have h₂ := length_of_tail? hr
  omega

/-- Recognises the conversions of one kind. -/
def recogniser (kind : Conversion) : Recogniser Unit where
  read s := (kind.read? s).map ((), ·)
  shorter h := by
    obtain ⟨rest, hr, he⟩ := Option.map_eq_some_iff.1 h
    obtain ⟨-, rfl⟩ := Prod.mk.injEq .. ▸ he
    exact length_of_read? hr

/-- Writes the placeholder over every conversion of this kind. -/
def substitute (kind : Conversion) (template : List Char) : List Char :=
  replaceMatches kind.recogniser (fun _ => kind.placeholder.toList) template

/-- The kinds of conversion in the order in which they are replaced. -/
def all : List Conversion := [int, str, uint, float]

end Conversion

/-- The published form of a reply template; an empty template counts as none. -/
def replyFormat (template : Option String) : Option String :=
  (template.filter (· ≠ "")).map fun t =>
    String.ofList (Conversion.all.foldl (fun s kind => kind.substitute s) t.toList)

end CliParity
