import CliParity.OrderedMap
import CliParity.Preferences.Field
import CliParity.Text.Digit
import CliParity.Text.Scan
import CliParity.Text.Word

/-!
# The layout of the preferences struct

The header of the firmware declares the settings that a node stores as the fields of a struct.
`layout` finds the struct by its name and reads its declarations with a primitive type. It looks for
declarations anywhere in the body and passes over what is none.
-/

set_option autoImplicit false

namespace CliParity

open Text

/-! ## Declarations -/

/-- Reads the name of a primitive type. -/
def PrimitiveType.read? (s : List Char) : Option (PrimitiveType × List Char) :=
  PrimitiveType.all.findSome? fun type => (after? type.typeName.toList s).map (type, ·)

namespace Field

/-- Reads an array length in brackets: its digits, and the rest. -/
def readBrackets? (s : List Char) : Option (List Char × List Char) := do
  let s ← after? ['['] s
  let (digits, s) ← run? isDigit s
  let s ← after? [']'] s
  return (digits, s)

/-- Reads a declaration: a primitive type, white space, a name, and perhaps an array length. A
length that is no number of a word is passed over. -/
def read? (s : List Char) : Option ((String × Field) × List Char) := do
  let (type, s) ← PrimitiveType.read? s
  let (_, s) ← run? isBlank s
  let (name, s) ← run? isWord s
  match readBrackets? s with
  | some (digits, s) => return ((String.ofList name, ⟨type, wordValue? digits⟩), s)
  | none => return ((String.ofList name, ⟨type, none⟩), s)

theorem length_of_readBrackets? {s digits rest : List Char}
    (h : readBrackets? s = some (digits, rest)) : rest.length < s.length := by
  simp only [readBrackets?, Option.bind_eq_bind, Option.bind_eq_some_iff, Option.pure_def,
    Option.some.injEq, Prod.mk.injEq, Prod.exists] at h
  obtain ⟨s₁, h₁, ds, s₂, h₂, s₃, h₃, -, rfl⟩ := h
  have l₁ := length_of_after? h₁
  have l₂ := length_of_run? h₂
  have l₃ := length_of_after? h₃
  omega

theorem length_of_readType? {s rest : List Char} {type : PrimitiveType}
    (h : PrimitiveType.read? s = some (type, rest)) : rest.length ≤ s.length := by
  obtain ⟨t, -, ht⟩ := List.exists_of_findSome?_eq_some h
  obtain ⟨r, hr, he⟩ := Option.map_eq_some_iff.1 ht
  obtain ⟨-, rfl⟩ := Prod.mk.injEq .. ▸ he
  have := length_of_after? hr
  omega

theorem length_of_read? {s rest : List Char} {field : String × Field}
    (h : read? s = some (field, rest)) : rest.length < s.length := by
  simp only [read?, Option.bind_eq_bind, Option.bind_eq_some_iff, Prod.exists] at h
  obtain ⟨type, s₁, h₁, bs, s₂, h₂, name, s₃, h₃, h⟩ := h
  have l₁ := length_of_readType? h₁
  have l₂ := length_of_run? h₂
  have l₃ := length_of_run? h₃
  split at h
  · rename_i digits s₄ h₄
    have l₄ := length_of_readBrackets? h₄
    simp only [Option.pure_def, Option.some.injEq, Prod.mk.injEq] at h
    obtain ⟨-, rfl⟩ := h
    omega
  · simp only [Option.pure_def, Option.some.injEq, Prod.mk.injEq] at h
    obtain ⟨-, rfl⟩ := h
    omega

/-- Recognises the declarations of fields. -/
def recogniser : Recogniser (String × Field) := ⟨read?, length_of_read?⟩

end Field

/-! ## The struct -/

/-- The struct whose fields are read where no other is named. -/
def defaultStructName : String := "NodePrefs"

/-- Reads `struct`, the name, and a body in braces that is not empty and holds no closing brace: the
body, and the rest. The name is taken as it is. -/
def readStruct? (structName : String) (s : List Char) : Option (List Char × List Char) := do
  let s ← after? ("struct ".toList ++ structName.toList) s
  let s ← after? ['\x7b'] (skipBlanks s)
  let (body, s) ← run? (· != '\x7d') s
  let s ← after? ['\x7d'] s
  return (body, s)

/-- The body of the leftmost struct of a name. -/
def structBody? (structName : String) (header : List Char) : Option (List Char) :=
  firstMatch? (readStruct? structName) header

/-- The fields of the struct in the order of their declaration. A name declared again keeps its
place and has its last declaration; without the struct there are no fields. -/
def layout (structName : String) (header : String) : OrderedMap String Field :=
  match structBody? structName header.toList with
  | some body => .ofList (allMatches Field.recogniser body)
  | none => .empty

end CliParity
