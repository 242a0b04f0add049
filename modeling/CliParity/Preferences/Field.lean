/-!
# Fields of the preferences struct
-/

set_option autoImplicit false

namespace CliParity

/-- The primitive types that a field of the struct may have. -/
inductive PrimitiveType
  | float
  | double
  | char
  | uint8
  | uint16
  | uint32
  | int
  deriving DecidableEq, Repr

namespace PrimitiveType

/-- Every primitive type once. -/
def all : List PrimitiveType := [float, double, char, uint8, uint16, uint32, int]

/-- The name of the type in the struct, which is also its published label. -/
def typeName : PrimitiveType → String
  | float => "float"
  | double => "double"
  | char => "char"
  | uint8 => "uint8_t"
  | uint16 => "uint16_t"
  | uint32 => "uint32_t"
  | int => "int"

/-- The type of a given name. -/
def ofTypeName? (name : String) : Option PrimitiveType := all.find? (·.typeName == name)

end PrimitiveType

/-- A field of the struct. -/
structure Field where
  type : PrimitiveType
  /-- The length of an array; absent for a single value. -/
  arrayLength : Option Nat
  deriving DecidableEq, Repr

end CliParity
