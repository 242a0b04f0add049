import CliParity.Json.Basic
import CliParity.Text.Digit

/-!
# Decoding JSON values

What a value denotes where the document's format asks for a text, a number, a record and so on. No
value is converted from one kind to another.

A record is an object with a member for each of its fields, in any order and among members of other
names, or an array with the fields in order. A label is a string, or an object whose one member has
the label for its key and null for its value.
-/

set_option autoImplicit false

namespace CliParity.Json

/-- The text of a string. -/
def toText? : Json → Option String
  | .scalar (.str (some text)) => some text
  | _ => none

/-- A truth value. -/
def toBool? : Json → Option Bool
  | .scalar (.bool b) => some b
  | _ => none

/-- A number of a machine word, written in digits only. -/
def toWord? : Json → Option Nat
  | .scalar (.number numeral) => Text.wordValue? numeral.toList
  | _ => none

/-- The items of an array. -/
def toItems? : Json → Option (List Json)
  | .arr items => some items
  | _ => none

/-- A list, from an array of its items. -/
def toList? {α : Type} (decode : Json → Option α) (value : Json) : Option (List α) :=
  value.toItems?.bind (·.mapM decode)

/-- An optional value, from null or the value. -/
def toOption? {α : Type} (decode : Json → Option α) : Json → Option (Option α)
  | .scalar .null => some none
  | value => (decode value).map some

/-- A member of an object with its key in text. -/
def toMember? {α : Type} (decode : Json → Option α) (member : Content × Json) :
    Option (String × α) := do
  let key ← member.1
  let value ← decode member.2
  return (key, value)

/-- The members of an object in order. -/
def toMembers? {α : Type} (decode : Json → Option α) : Json → Option (List (String × α))
  | .obj members => members.mapM (toMember? decode)
  | _ => none

/-- The label that a value names. -/
def toLabel? : Json → Option String
  | .scalar (.str (some label)) => some label
  | .obj [(some label, .scalar .null)] => some label
  | _ => none

/-! ## Records -/

/-- The value of the only member with a key, or nothing if there is no such member. A second one
makes the object no record. -/
def field? (key : String) (members : List (String × Json)) : Option (Option Json) :=
  match members.filter fun (k, _) => k = key with
  | [] => some none
  | [(_, value)] => some (some value)
  | _ => none

/-- The fields of a record by the order of their names. Of an object, a field may be absent. -/
def toFields? (names : List String) : Json → Option (List (Option Json))
  | .obj members => do
    let members ← members.mapM (toMember? some)
    names.mapM (field? · members)
  | .arr items => if items.length = names.length then some (items.map some) else none
  | .scalar _ => none

/-- A field that has to be present. -/
def required? {α : Type} (decode : Json → Option α) (value : Option Json) : Option α :=
  value.bind decode

/-- A field that may be absent or null. -/
def optional? {α : Type} (decode : Json → Option α) : Option Json → Option (Option α)
  | none => some none
  | some value => toOption? decode value

end CliParity.Json
