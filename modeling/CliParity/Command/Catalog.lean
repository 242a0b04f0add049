/-!
# What is known about the commands beforehand

A `Catalog` holds what the dispatcher's text does not tell: a description for each known command,
and which commands only the serial console may send. A command without a description gets a general
one, so every name is described.
-/

set_option autoImplicit false

namespace CliParity

/-- Descriptions of known commands, and the names that are for the serial console only. -/
structure Catalog where
  descriptions : List (String × String)
  serialOnly : List String

namespace Catalog

/-- The description of a name. Where a table has a name twice, the later entry counts. -/
def describe (catalog : Catalog) (name : String) : String :=
  match catalog.descriptions.reverse.lookup name with
  | some text => text
  | none => "Execute " ++ name ++ " command"

/-- Whether a name is for the serial console only, wherever its comparison stands. -/
def isSerialOnly (catalog : Catalog) (name : String) : Bool := catalog.serialOnly.contains name

theorem isSerialOnly_iff {catalog : Catalog} {name : String} :
    catalog.isSerialOnly name ↔ name ∈ catalog.serialOnly :=
  List.contains_iff_mem

/-! ## The MeshCore command set -/

/-- The commands that MeshCore accepts from the local serial console only. -/
def meshCoreSerialOnly : List String :=
  ["get prv.key", "set prv.key", "erase", "log", "stats-packets", "stats-radio", "stats-core",
   "set freq"]

/-- The descriptions of the known MeshCore commands. -/
def meshCoreDescriptions : List (String × String) :=
  [("reboot", "Reboot the device"),
   ("advert", "Send self advertisement"),
   ("clock", "Display current time"),
   ("clock sync", "Sync clock from sender timestamp"),
   ("time", "Set time to epoch seconds"),
   ("ver", "Show firmware version and build date"),
   ("board", "Show board/manufacturer name"),
   ("erase", "Erase filesystem (serial only)"),
   ("start ota", "Start OTA firmware update"),
   ("clear stats", "Reset statistics counters"),
   ("password", "Change admin password"),
   ("get af", "Get airtime factor"),
   ("get name", "Get node name"),
   ("get repeat", "Get repeat/forward status (on/off)"),
   ("get lat", "Get latitude"),
   ("get lon", "Get longitude"),
   ("get radio", "Get radio params (freq,bw,sf,cr)"),
   ("get freq", "Get frequency (MHz)"),
   ("get tx", "Get TX power (dBm)"),
   ("get public.key", "Get public key (hex)"),
   ("get prv.key", "Get private key (serial only)"),
   ("get role", "Get device role"),
   ("get rxdelay", "Get RX delay base"),
   ("get txdelay", "Get TX delay factor"),
   ("get direct.txdelay", "Get direct TX delay factor"),
   ("get flood.max", "Get max flood hops"),
   ("get guest.password", "Get guest password"),
   ("get allow.read.only", "Get read-only access setting"),
   ("get advert.interval", "Get local advert interval (minutes)"),
   ("get flood.advert.interval", "Get flood advert interval (hours)"),
   ("get int.thresh", "Get interference threshold"),
   ("get agc.reset.interval", "Get AGC reset interval (seconds)"),
   ("get multi.acks", "Get multi-ack setting"),
   ("get adc.multiplier", "Get ADC multiplier for battery"),
   ("get bridge.type", "Get bridge type (rs232/espnow/none)"),
   ("get bridge.enabled", "Get bridge enabled status"),
   ("get bridge.delay", "Get bridge delay (ms)"),
   ("get bridge.source", "Get bridge packet source"),
   ("get bridge.baud", "Get bridge baud rate"),
   ("get bridge.channel", "Get bridge channel (ESP-NOW)"),
   ("get bridge.secret", "Get bridge encryption secret"),
   ("set af", "Set airtime factor (0-9)"),
   ("set name", "Set node name"),
   ("set repeat", "Set repeat/forward (on/off)"),
   ("set lat", "Set latitude"),
   ("set lon", "Set longitude"),
   ("set radio", "Set radio params (freq bw sf cr)"),
   ("set freq", "Set frequency MHz (serial only, reboot required)"),
   ("set tx", "Set TX power (dBm)"),
   ("set prv.key", "Set private key (serial only)"),
   ("set rxdelay", "Set RX delay base"),
   ("set txdelay", "Set TX delay factor"),
   ("set direct.txdelay", "Set direct TX delay factor"),
   ("set flood.max", "Set max flood hops (0-64)"),
   ("set guest.password", "Set guest password"),
   ("set allow.read.only", "Set read-only access (on/off)"),
   ("set advert.interval", "Set local advert interval (60-240 min, 0=off)"),
   ("set flood.advert.interval", "Set flood advert interval (3-48 hours, 0=off)"),
   ("set int.thresh", "Set interference threshold"),
   ("set agc.reset.interval", "Set AGC reset interval (seconds, rounded to 4)"),
   ("set multi.acks", "Set multi-ack (0/1)"),
   ("set adc.multiplier", "Set ADC multiplier"),
   ("set bridge.enabled", "Enable/disable bridge"),
   ("set bridge.delay", "Set bridge delay (0-10000 ms)"),
   ("set bridge.source", "Set bridge source (rx/tx)"),
   ("set bridge.baud", "Set bridge baud (9600-115200)"),
   ("set bridge.channel", "Set bridge channel (1-14)"),
   ("set bridge.secret", "Set bridge encryption secret"),
   ("neighbors", "List neighbors"),
   ("neighbor.remove", "Remove neighbor by pubkey"),
   ("tempradio", "Apply temporary radio params (freq bw sf cr timeout_mins)"),
   ("log", "Dump log file (serial only)"),
   ("log start", "Start packet logging"),
   ("log stop", "Stop packet logging"),
   ("log erase", "Erase log file"),
   ("stats-packets", "Show packet statistics (serial only)"),
   ("stats-radio", "Show radio statistics (serial only)"),
   ("stats-core", "Show core statistics (serial only)"),
   ("sensor get", "Get sensor/custom variable value"),
   ("sensor set", "Set sensor/custom variable value"),
   ("sensor list", "List all sensor/custom variables"),
   ("gps", "Show GPS status"),
   ("gps on", "Enable GPS"),
   ("gps off", "Disable GPS"),
   ("gps sync", "Sync time from GPS"),
   ("gps setloc", "Set node location from GPS"),
   ("gps advert", "Get/set GPS advert location policy")]

/-- What is known about the commands of MeshCore. -/
def meshCore : Catalog := ⟨meshCoreDescriptions, meshCoreSerialOnly⟩

end Catalog

end CliParity
