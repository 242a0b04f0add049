import CliParity.CommandLine.Arguments

/-!
# What programs leave behind
-/

set_option autoImplicit false

namespace CliParity.CommandLine

/-- What a program leaves behind: its exit code and what it writes to its two outputs. -/
structure Exit where
  code : UInt32
  output : String
  errors : String
  deriving DecidableEq, Repr

namespace Exit

/-- The program did what it was asked for. -/
def success (output : String) : Exit := ⟨0, output, ""⟩

/-- The program did not, and says so on its output. -/
def refusal (output : String) : Exit := ⟨1, output, ""⟩

/-- The program failed. -/
def failure (message : String) : Exit := ⟨1, "", "Error: " ++ message ++ "\n"⟩

end Exit

/-- The answer where the arguments are no order to work. -/
def Interface.stopped (i : Interface) : Stop → Exit
  | .usage e => ⟨2, "", "error: " ++ e.message ++ "\n\n" ++ i.usage ++ "\n"⟩
  | .version => .success (i.program ++ " " ++ i.version ++ "\n")
  | .help => .success i.help

end CliParity.CommandLine
