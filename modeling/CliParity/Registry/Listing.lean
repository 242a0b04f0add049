import CliParity.Json.Quoted
import CliParity.Registry.Basic

/-!
# The registry as a TypeScript module

The console's front end takes the commands and categories as a module of constants. Each command
takes eight lines, between a fixed head and tail. Texts are written as JSON strings, so they hold no
line break; the version and the source's address stand in comments as they are.
-/

set_option autoImplicit false

namespace CliParity

/-- A text as a string literal. -/
def literal (text : String) : String := String.ofList (Json.Quoted.write text.toList)

/-- Items in brackets. -/
def bracketed (items : List String) : String := "[" ++ ", ".intercalate items ++ "]"

/-- A truth value as a literal. -/
def truthLiteral (b : Bool) : String := if b then "true" else "false"

/-- An argument as an object literal. -/
def Argument.listing (a : Argument) : String :=
  "\x7b\"name\": " ++ literal a.name ++ ", \"type\": " ++ literal a.type.label ++ "\x7d"

/-- The lines of a command. -/
def Command.listing (c : Command) : List String :=
  ["  \x7b",
   "    name: " ++ literal c.name ++ ",",
   "    category: " ++ literal c.category.label ++ ",",
   "    params: " ++ bracketed (c.arguments.map Argument.listing) ++ ",",
   "    description: " ++ literal c.description ++ ",",
   "    serialOnly: " ++ truthLiteral c.serialOnly ++ ",",
   "    hasParam: " ++ truthLiteral c.takesArgument ++ ",",
   "  \x7d,"]

namespace Registry

/-- The lines in front of the commands. -/
def listingHead (r : Registry) : List String :=
  ["// Auto-generated from MeshCore CommonCLI.cpp",
   "// Generated: " ++ r.provenance.version,
   "// Source: " ++ r.provenance.sourceUrl,
   "",
   "export interface MeshCoreCommand \x7b",
   "  name: string;",
   "  category: string;",
   "  params: \x7b name: string; type: string \x7d[];",
   "  description: string;",
   "  serialOnly: boolean;",
   "  hasParam: boolean;",
   "\x7d",
   "",
   "export const MESHCORE_COMMANDS: MeshCoreCommand[] = ["]

/-- The lines after the commands. -/
def listingTail (r : Registry) : List String :=
  ["];",
   "",
   "export const MESHCORE_CATEGORIES = " ++
     bracketed (r.categories.map fun c => literal c.label) ++ ";",
   ""]

/-- The lines of the module. -/
def listingLines (r : Registry) : List String :=
  r.listingHead ++ r.commands.flatMap Command.listing ++ r.listingTail

/-- The module of a registry. -/
def listing (r : Registry) : String := "\n".intercalate r.listingLines

end Registry

end CliParity
