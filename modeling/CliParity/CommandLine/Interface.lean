import CliParity.Text.Digit
import CliParity.Text.Scan

/-!
# Program interfaces

An `Interface` lists the arguments that a program takes. A `Stop` says why given arguments are no
order to work: they are in error, or ask for the version or for help.

The wording and layout of the help and of usage errors is not modelled. A parser of arguments brings
its own, with a line on the program, a section on its operand and a name for each option's value;
the texts here are shorter and stand in for those. Which arguments stop a program, and with which
code it exits, does not depend on them.
-/

set_option autoImplicit false

namespace CliParity.CommandLine

open Text

/-! ## Options and operands -/

/-- What the value of an option is. -/
inductive Value
  /-- Any text. -/
  | text
  /-- The path of a file, which is not empty. -/
  | path
  /-- A number of a machine word, perhaps with a plus sign. -/
  | count
  deriving DecidableEq, Repr

/-- The number that a count is written as. -/
def readCount? (value : String) : Option Nat := wordValue? (skipOptional '+' value.toList)

namespace Value

/-- Whether a text is a value of this kind. -/
def accepts : Value → String → Bool
  | text, _ => true
  | path, value => value != ""
  | count, value => (readCount? value).isSome

end Value

/-- An option of a program. -/
structure OptionSpec where
  name : String
  letter : Option Char
  /-- The kind of its value; a flag has none. -/
  value : Option Value
  /-- What it does, for the help text. -/
  help : String
  deriving DecidableEq, Repr

/-- The arguments that a program takes. -/
structure Interface where
  program : String
  version : String
  options : List OptionSpec
  /-- What the only operand is called; a program without one takes no operands. The operand is the
  path of a file. -/
  operand : Option String
  deriving DecidableEq, Repr

namespace Interface

/-- A line of help on an option. -/
def helpLine (o : OptionSpec) : String :=
  let letter := match o.letter with
    | some c => String.ofList ['-', c, ',', ' ']
    | none => "    "
  let value := if o.value.isSome then " <value>" else ""
  "  " ++ letter ++ "--" ++ o.name ++ value ++ "  " ++ o.help

/-- The line that shows how the program is called. -/
def usage (i : Interface) : String :=
  let operand := (i.operand.map fun name => " <" ++ name ++ ">").getD ""
  "Usage: " ++ i.program ++ " [OPTIONS]" ++ operand

/-- The help text, in a layout of its own that no result is about. -/
def help (i : Interface) : String :=
  "\n".intercalate (i.usage :: "" :: "Options:" :: i.options.map helpLine ++
    ["  -h, --help  Print help", "  -V, --version  Print version", ""])

end Interface

/-! ## Errors -/

/-- What is wrong with some arguments. -/
inductive UsageError
  | unknown (argument : String)
  | repeated (name : String)
  | valueMissing (name : String)
  | valueUnexpected (name : String)
  | valueInvalid (name value : String)
  | operandMissing (name : String)
  deriving DecidableEq, Repr

/-- Why the arguments are no order to work. -/
inductive Stop
  | usage (e : UsageError)
  | version
  | help
  deriving DecidableEq, Repr

namespace UsageError

/-- What is wrong, in words that are this library's own. -/
def message : UsageError → String
  | unknown argument => "unexpected argument '" ++ argument ++ "'"
  | repeated name => "'--" ++ name ++ "' cannot be given twice"
  | valueMissing name => "'--" ++ name ++ "' needs a value"
  | valueUnexpected name => "'--" ++ name ++ "' takes no value"
  | valueInvalid name value => "'" ++ value ++ "' is no value for '" ++ name ++ "'"
  | operandMissing name => "missing " ++ name

end UsageError

end CliParity.CommandLine
