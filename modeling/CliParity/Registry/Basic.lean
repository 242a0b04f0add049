import CliParity.Command.Basic
import CliParity.OrderedMap
import CliParity.Preferences.Field

/-!
# The command registry

The registry is the published document about a firmware: its commands, listed and by category, and
the layout of its preferences. `assemble` builds it from what was recovered. A registry that was
read from a file need not be one that `assemble` builds.
-/

set_option autoImplicit false

namespace CliParity

/-- Where a registry comes from. -/
structure Provenance where
  /-- The day of its generation in UTC, `YYYY-MM-DD`. -/
  version : String
  /-- Where the dispatcher was fetched from. -/
  sourceUrl : String
  /-- The tool that generated it. -/
  generatedBy : String
  deriving DecidableEq, Repr

/-- The published document. -/
structure Registry where
  provenance : Provenance
  /-- How many commands there are. -/
  totalCommands : Nat
  /-- The categories that have a command. -/
  categories : List Category
  commands : List Command
  /-- The commands of each category. -/
  commandsByCategory : OrderedMap Category (List Command)
  /-- The fields of the preferences struct. -/
  nodePrefs : OrderedMap String Field
  deriving DecidableEq, Repr

/-- Commands are listed by the label of their category, then by name, both as text. -/
def Command.listedBefore (a b : Command) : Bool :=
  decide (a.category.label < b.category.label) ||
    (a.category.label == b.category.label && decide (a.name ≤ b.name))

namespace Registry

/-- The commands of each category; the categories come in the order of their first command. -/
def groupByCategory (commands : List Command) : OrderedMap Category (List Command) :=
  commands.foldl (fun groups c =>
    groups.insert c.category ((groups.get? c.category).getD [] ++ [c])) .empty

/-- The registry of some commands and fields. Commands that are listed alike stay in order. -/
def assemble (commands : List Command) (nodePrefs : OrderedMap String Field)
    (provenance : Provenance) : Registry :=
  let sorted := commands.mergeSort Command.listedBefore
  let groups := groupByCategory sorted
  { provenance
    totalCommands := sorted.length
    categories := groups.keys
    commands := sorted
    commandsByCategory := groups
    nodePrefs }

/-- The number of commands of each category, in the order of the document. -/
def categoryCounts (registry : Registry) : List (Category × Nat) :=
  registry.commandsByCategory.entries.map fun (category, commands) => (category, commands.length)

end Registry

end CliParity
