import CliParity.Json.Decode
import CliParity.Json.Pretty
import CliParity.Json.Reader
import CliParity.Registry.Basic

/-!
# The registry as a JSON document

`Registry.render` writes a registry, `Registry.read?` reads one back. Reading takes the members of
an object in any order and passes over members it does not know.
-/

set_option autoImplicit false

namespace CliParity

open Json

/-! ## Writing -/

/-- The value of an argument. -/
def Argument.toJson (a : Argument) : Json :=
  .object [("name", .str a.name), ("type", .str a.type.label)]

/-- The value of a command. -/
def Command.toJson (c : Command) : Json :=
  .object
    [("name", .str c.name), ("category", .str c.category.label),
     ("params", .arr (c.arguments.map Argument.toJson)),
     ("response_format", .ofOption .str c.replyFormat), ("description", .str c.description),
     ("serial_only", .bool c.serialOnly), ("has_param", .bool c.takesArgument)]

/-- The value of a field. -/
def Field.toJson (f : Field) : Json :=
  .object [("type", .str f.type.typeName), ("array_size", .ofOption .nat f.arrayLength)]

/-- The value of a list of commands. -/
def Command.listToJson (commands : List Command) : Json := .arr (commands.map Command.toJson)

namespace Registry

/-- The value of a registry. -/
def toJson (r : Registry) : Json :=
  .object
    [("version", .str r.provenance.version), ("source_url", .str r.provenance.sourceUrl),
     ("generated_by", .str r.provenance.generatedBy), ("total_commands", .nat r.totalCommands),
     ("categories", .arr (r.categories.map fun c => .str c.label)),
     ("commands", Command.listToJson r.commands),
     ("commands_by_category", .object (r.commandsByCategory.entries.map fun (c, commands) =>
       (c.label, Command.listToJson commands))),
     ("node_prefs", .object (r.nodePrefs.entries.map fun (name, field) => (name, field.toJson)))]

/-- The document of a registry. -/
def render (r : Registry) : String := r.toJson.pretty

end Registry

/-! ## Reading -/

/-- Reads a category by its label. -/
def Category.ofJson? (value : Json) : Option Category := value.toLabel?.bind Category.ofLabel?

/-- Reads the type of an argument by its label. -/
def ArgumentType.ofJson? (value : Json) : Option ArgumentType :=
  value.toLabel?.bind ArgumentType.ofLabel?

/-- Reads a primitive type by its name. -/
def PrimitiveType.ofJson? (value : Json) : Option PrimitiveType :=
  value.toLabel?.bind PrimitiveType.ofTypeName?

/-- Reads an argument. -/
def Argument.ofJson? (value : Json) : Option Argument := do
  match ← value.toFields? ["name", "type"] with
  | [name, type] =>
    return { name := ← required? toText? name, type := ← required? ArgumentType.ofJson? type }
  | _ => none

/-- Reads a command. Its reply format may be absent. -/
def Command.ofJson? (value : Json) : Option Command := do
  match ← value.toFields? ["name", "category", "params", "response_format", "description",
    "serial_only", "has_param"] with
  | [name, category, arguments, replyFormat, description, serialOnly, takesArgument] =>
    return {
      name := ← required? toText? name
      category := ← required? Category.ofJson? category
      arguments := ← required? (toList? Argument.ofJson?) arguments
      replyFormat := ← optional? toText? replyFormat
      description := ← required? toText? description
      serialOnly := ← required? toBool? serialOnly
      takesArgument := ← required? toBool? takesArgument }
  | _ => none

/-- Reads a field. Its array length may be absent. -/
def Field.ofJson? (value : Json) : Option Field := do
  match ← value.toFields? ["type", "array_size"] with
  | [type, arrayLength] =>
    return {
      type := ← required? PrimitiveType.ofJson? type
      arrayLength := ← optional? toWord? arrayLength }
  | _ => none

/-- Reads a list of commands. -/
def Command.listOfJson? (value : Json) : Option (List Command) := toList? Command.ofJson? value

namespace Registry

/-- Reads the commands of each category. A category that comes again keeps its place and takes the
later commands. -/
def groupsOfJson? (value : Json) : Option (OrderedMap Category (List Command)) := do
  let members ← value.toMembers? Command.listOfJson?
  let entries ← members.mapM fun (label, commands) =>
    (Category.ofLabel? label).map fun category => (category, commands)
  return .ofList entries

/-- Reads the fields of the preferences struct, by name. -/
def nodePrefsOfJson? (value : Json) : Option (OrderedMap String Field) :=
  (value.toMembers? Field.ofJson?).map .ofList

/-- Reads a registry. -/
def ofJson? (value : Json) : Option Registry := do
  match ← value.toFields? ["version", "source_url", "generated_by", "total_commands", "categories",
    "commands", "commands_by_category", "node_prefs"] with
  | [version, sourceUrl, generatedBy, totalCommands, categories, commands, groups, nodePrefs] =>
    return {
      provenance := {
        version := ← required? toText? version
        sourceUrl := ← required? toText? sourceUrl
        generatedBy := ← required? toText? generatedBy }
      totalCommands := ← required? toWord? totalCommands
      categories := ← required? (toList? Category.ofJson?) categories
      commands := ← required? Command.listOfJson? commands
      commandsByCategory := ← required? groupsOfJson? groups
      nodePrefs := ← required? nodePrefsOfJson? nodePrefs }
  | _ => none

/-- Reads the document of a registry. -/
def read? (text : String) : Option Registry := (Json.read? text).bind ofJson?

end Registry

end CliParity
