import CliParity.Command.Category

/-!
# Commands of a node

A `Command` describes one command of the node's command line: its name, the arguments it converts,
the shape of its reply, and who may send it.
-/

set_option autoImplicit false

namespace CliParity

/-- What an argument of a command is converted to. -/
inductive ArgumentType
  | float
  | int
  | string
  deriving DecidableEq, Repr

namespace ArgumentType

/-- Every argument type once. -/
def all : List ArgumentType := [float, int, string]

/-- The published label. -/
def label : ArgumentType → String
  | float => "float"
  | int => "int"
  | string => "string"

/-- The argument type with a given label. -/
def ofLabel? (label : String) : Option ArgumentType := all.find? (·.label == label)

end ArgumentType

/-- An argument of a command. -/
structure Argument where
  name : String
  type : ArgumentType
  deriving DecidableEq, Repr

namespace Argument

/-- The name of an argument recovered from the dispatcher, which names none. -/
def inferredName : String := "value"

/-- An argument of which only the conversion is known. -/
def inferred (type : ArgumentType) : Argument := ⟨inferredName, type⟩

end Argument

/-- One command of the node's command line. -/
structure Command where
  /-- The full name, such as `set af` or `tempradio`. -/
  name : String
  category : Category
  /-- The arguments, in the order in which they are converted. -/
  arguments : List Argument
  /-- The shape of the reply, with a placeholder for each value. -/
  replyFormat : Option String
  description : String
  /-- Accepted from the local serial console only. -/
  serialOnly : Bool
  takesArgument : Bool
  deriving DecidableEq, Repr

end CliParity
