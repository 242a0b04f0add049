import CliParity.CommandLine.PatchTool
import CliParity.CommandLine.PublishTool
import Std.Time.Format

/-!
# The programs

One executable holds both programs and runs the one that it is named for: `mesh-cli-patch`, or
otherwise `meshcore-cli-parse`. It stores files on the machine. It has no access to the network, so
every fetch fails and the sources have to be local copies.
-/

set_option autoImplicit false

namespace CliParity.Main

/-- The cause of a system error. -/
def fileError : IO.Error → FileError
  | .noFileOrDirectory .. => .notFound
  | .alreadyExists .. => .alreadyExists
  | .inappropriateType _ code _ => if code = 20 then .notDirectory else .isDirectory
  | e@(.invalidArgument _ code _) => if code = 36 then .nameTooLong else .other (toString e)
  | e => .other (toString e)

/-- The result of an action on a file, or why it failed. -/
def attempt {α : Type} (path : Path) (action : IO α) : IO (Except FileError α) := do
  if let some e := path.fault? then return .error e
  match ← action.toBaseIO with
  | .ok a => return .ok a
  | .error e => return .error (fileError e)

/-- Makes a directory and fails only if none is there afterwards. -/
def ensureDir (path : Path) : IO (Except FileError Unit) := do
  match ← attempt path (IO.FS.createDir path.text) with
  | .ok () => return .ok ()
  | .error e =>
    match ← attempt path do (← IO.FS.realPath path.text).isDir with
    | .ok true => return .ok ()
    | _ => return .error e

/-- Makes a directory, and those that it is in where one is missing. -/
partial def createDirs (path : Path) : IO (Except FileError Unit) := do
  match ← ensureDir path, path.parent? with
  | .error .notFound, some parent =>
    if parent.text.isEmpty then return .error .notFound
    match ← createDirs parent with
    | .ok () => ensureDir path
    | .error e => return .error e
  | result, _ => return result

instance : FileStore IO where
  isPresent path := do
    match ← attempt path (IO.FS.Handle.mk path.text .read) with
    | .ok _ => return true
    | .error (.other _) => return true
    | .error _ => return false
  readText path := do
    match ← attempt path do (← IO.FS.Handle.mk path.text .read).readBinToEnd with
    | .ok content =>
      match String.fromUTF8? content with
      | some text => return .ok text
      | none => return .error .notText
    | .error e => return .error e
  createDirs := createDirs
  writeText path text := attempt path (IO.FS.writeFile path.text text)

/-- Today's date in UTC. -/
def today : IO String := do
  let now ← Std.Time.Timestamp.now
  return toString (Std.Time.PlainDate.ofEpochDay now.toDaysSinceUnixEpoch)

/-- The variables of the environment that the programs use. -/
def environment : IO (List (String × String)) := do
  let mut found := []
  for (_, name) in CommandLine.PublishTool.variableOf do
    if let some value ← IO.getEnv name then
      found := found ++ [(name, value)]
  return found

/-- A fetch without a network. -/
def fetch (address : String) : Except String String := .error ("failed to fetch " ++ address)

/-- Runs the program of a name. -/
def run (program : String) (arguments : List String) : IO CommandLine.Exit := do
  if program = CommandLine.PatchTool.interface.program then
    CommandLine.PatchTool.run arguments
  else
    CommandLine.PublishTool.run fetch (← today) (← environment) arguments

end CliParity.Main

/-- Runs the program that the executable is named for. -/
def main (arguments : List String) : IO UInt32 := do
  let program := (← IO.appPath).fileName.getD ""
  let exit ← CliParity.Main.run program arguments
  (← IO.getStdout).putStr exit.output
  (← IO.getStderr).putStr exit.errors
  return exit.code
