/-!
# Command categories

The twelve groups that the commands of a node are listed under, and the rules that put a command
into one by its name. The first leading text that fits decides; only then are whole names looked
up. A name that no rule knows is in `Category.other`.
-/

set_option autoImplicit false

namespace CliParity

/-- The functional category of a command. -/
inductive Category
  /-- Reads of a setting, `get <key>`. -/
  | get
  /-- Writes of a setting, `set <key> <value>`. -/
  | set
  /-- The packet log. -/
  | logging
  /-- The position receiver. -/
  | gps
  /-- Sensors and custom variables. -/
  | sensor
  /-- The bridge to another link. -/
  | bridge
  /-- Dumps of statistics. -/
  | stats
  /-- The table of neighbours. -/
  | neighbor
  /-- The device itself: reboot, clock, version. -/
  | system
  /-- Temporary radio parameters. -/
  | radio
  /-- Settings compared outside a block of reads or writes. -/
  | config
  /-- All the rest. -/
  | other
  deriving DecidableEq, Repr

namespace Category

/-- Every category once. -/
def all : List Category :=
  [get, set, logging, gps, sensor, bridge, stats, neighbor, system, radio, config, other]

/-- The published label, which is also what categories are sorted by. -/
def label : Category → String
  | get => "get"
  | set => "set"
  | logging => "logging"
  | gps => "gps"
  | sensor => "sensor"
  | bridge => "bridge"
  | stats => "stats"
  | neighbor => "neighbor"
  | system => "system"
  | radio => "radio"
  | config => "config"
  | other => "other"

/-- The category with a given label. -/
def ofLabel? (label : String) : Option Category := all.find? (·.label == label)

/-- The leading texts that decide a category, in order of precedence. -/
def leadingTexts : List (String × Category) :=
  [("get ", get), ("set ", set), ("log", logging), ("gps", gps), ("sensor", sensor),
   ("bridge", bridge), ("stats", stats)]

/-- The commands on the table of neighbours. -/
def neighborCommands : List String := ["neighbors", "neighbor.remove"]

/-- The commands on the device itself. -/
def systemCommands : List String :=
  ["reboot", "advert", "clock", "clock sync", "time", "ver", "board", "erase", "start ota",
   "clear stats", "password"]

/-- The category of a full command name. -/
def ofName (name : String) : Category :=
  match leadingTexts.find? fun (lead, _) => lead.toList.isPrefixOf name.toList with
  | some (_, category) => category
  | none =>
    if name ∈ neighborCommands then neighbor
    else if name ∈ systemCommands then system
    else if name = "tempradio" then radio
    else other

end Category

end CliParity
