/-!
# JSON values

A `Json` value keeps what a document says and no more than a reader of documents needs: numbers as
they are written, the members of an object in order and with repetitions.
-/

set_option autoImplicit false

namespace CliParity

namespace Json

/-- The content of a string: its text, or nothing for a string that is well formed but escapes half
of a surrogate pair without the other half. -/
abbrev Content := Option String

/-- A value without parts. -/
inductive Scalar
  | null
  | bool (b : Bool)
  /-- A number as it is written. -/
  | number (numeral : String)
  | str (content : Content)
  deriving DecidableEq, Repr

end Json

/-- A JSON value. -/
inductive Json
  | scalar (s : Json.Scalar)
  | arr (items : List Json)
  | obj (members : List (Json.Content × Json))
  deriving Repr

namespace Json

/-- The null value. -/
def null : Json := .scalar .null

/-- A truth value. -/
def bool (b : Bool) : Json := .scalar (.bool b)

/-- A natural number, in decimal. -/
def nat (n : Nat) : Json := .scalar (.number (String.ofList (Nat.toDigits 10 n)))

/-- A string with a text. -/
def str (text : String) : Json := .scalar (.str (some text))

/-- A value that may be absent, as null. -/
def ofOption {α : Type} (encode : α → Json) : Option α → Json
  | none => null
  | some a => encode a

/-- An object of named members. -/
def object (members : List (String × Json)) : Json :=
  .obj (members.map fun (key, value) => (some key, value))

end Json

end CliParity
