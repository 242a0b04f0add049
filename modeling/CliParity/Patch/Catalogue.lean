import CliParity.Patch.Additions
import CliParity.Patch.Edit
import CliParity.Patch.Stubs

/-!
# The patches of the repeater's command line

A `Patch` is an edit with a name. `catalogue` lists those that bring the repeater's command line up
to the firmware's: temporary radio parameters that revert, removal of a neighbour, statistics, the
board command, and a reboot. `applyAll` tries patches one after the other, each on the text that the
ones before have left, and reports those that changed it.
-/

set_option autoImplicit false

namespace CliParity

/-- A named edit. -/
structure Patch where
  /-- What the patch is reported by. -/
  name : String
  edit : Edit
  deriving DecidableEq, Repr

namespace Patch

open Snippet

/-! ## The catalogue -/

/-- Imports the module of processes. -/
def imports : Patch :=
  ⟨"imports", .replaceBefore subprocessMarker loggerLine timeImport timeAndSubprocessImport⟩

/-- Adds the state of the temporary radio parameters. -/
def tempRadioState : Patch :=
  ⟨"tempradio_state", .insertAfter taskMarker configAssignment Snippet.tempRadioState⟩

/-- Makes the reboot command work. -/
def reboot : Patch := ⟨"reboot", .replace rebootStub rebootMethod⟩

/-- Makes the command work that clears the statistics. -/
def clearStats : Patch := ⟨"clear_stats", .replace clearStatsStub clearStatsMethod⟩

/-- Makes the command work that removes a neighbour. -/
def neighborRemove : Patch :=
  ⟨"neighbor_remove", .replace neighborRemoveStub neighborRemoveMethod⟩

/-- Makes the command of temporary radio parameters work. -/
def tempRadio : Patch := ⟨"tempradio", .replace tempRadioStub tempRadioMethod⟩

/-- Gives each statistics command a route. -/
def statsRouting : Patch := ⟨"stats_routing", .replace statsRoutingStub Snippet.statsRouting⟩

/-- Gives the board command a route. -/
def boardRouting : Patch :=
  ⟨"board_routing", .replaceUnless boardMarker versionRouting versionAndBoardRouting⟩

/-- Adds the methods of the statistics commands and of the board command. -/
def statsMethods : Patch :=
  ⟨"stats_methods", .appendToLastLine statsMarker unknownLogReturn Snippet.statsMethods⟩

/-- The patches in the order in which they are applied. -/
def catalogue : List Patch :=
  [imports, tempRadioState, reboot, clearStats, neighborRemove, tempRadio, statsRouting,
   boardRouting, statsMethods]

/-- The patch of the catalogue with a given name. -/
def named? (name : String) : Option Patch := catalogue.find? (·.name == name)

/-! ## Runs -/

/-- The text that a patch makes of another, if it makes a difference. -/
def effect? (patch : Patch) (content : List Char) : Option (List Char) :=
  (patch.edit.result? content).filter (· ≠ content)

/-- What a run of patches leaves. -/
structure Outcome where
  content : List Char
  /-- The names of the patches that changed the text, in order. -/
  applied : List String
  deriving DecidableEq, Repr

namespace Outcome

/-- Some patch changed the text. -/
def changed (outcome : Outcome) : Bool := !outcome.applied.isEmpty

end Outcome

/-- Runs patches over a text. -/
def applyAll : List Patch → List Char → Outcome
  | [], content => ⟨content, []⟩
  | patch :: rest, content =>
    match patch.effect? content with
    | some next =>
      let outcome := applyAll rest next
      { outcome with applied := patch.name :: outcome.applied }
    | none => applyAll rest content

end Patch

end CliParity
