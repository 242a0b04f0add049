import CliParity.CommandLine.Exit
import CliParity.Publication.Basic

/-!
# The program that publishes the registry

`meshcore-cli-parse` publishes the registry of the firmware's sources, from their addresses or from
local copies, and prints how many commands each category has.
-/

set_option autoImplicit false

namespace CliParity.CommandLine.PublishTool

/-- The arguments of the program. -/
def interface : Interface where
  program := Publication.generator
  version := "0.1.0"
  options :=
    [⟨"output", some 'o', some .path, "Output JSON file path"⟩,
     ⟨"typescript", some 't', none, "Also generate TypeScript definitions next to the JSON file"⟩,
     ⟨"cpp-url", none, some .text, "URL of CommonCLI.cpp"⟩,
     ⟨"header-url", none, some .text, "URL of CommonCLI.h"⟩,
     ⟨"cpp-file", none, some .path, "Read CommonCLI.cpp from a local file"⟩,
     ⟨"header-file", none, some .path, "Read CommonCLI.h from a local file"⟩,
     ⟨"lookahead", none, some .count,
       "Lines scanned after each command match for replies and arguments"⟩,
     ⟨"struct-name", none, some .text, "Struct in the header whose members are listed"⟩]
  operand := none

/-- The variable of the environment that holds an option's value where the option is not given. -/
def variableOf : List (String × String) :=
  [("cpp-url", "MESHCORE_CPP_URL"), ("header-url", "MESHCORE_HEADER_URL")]

/-- The value of an option, given as an argument or else by the environment. -/
def value? (environment : List (String × String)) (p : Progress) (option : String) :
    Option String :=
  (p.value? option).or do
    let name ← variableOf.lookup option
    environment.lookup name

/-- The settings that the arguments ask for, on a given day. A local copy is preferred to an
address. -/
def settings (today : String) (environment : List (String × String)) (p : Progress) :
    Publication.Settings :=
  let base := Publication.Settings.defaults today
  let value := value? environment p
  let source (file address : String) : Publication.Source :=
    match value file with
    | some path => .file ⟨path⟩
    | none => .url address
  let dispatcherUrl := (value "cpp-url").getD Publication.dispatcherUrl
  let headerUrl := (value "header-url").getD Publication.headerUrl
  { base with
    dispatcher := source "cpp-file" dispatcherUrl
    header := source "header-file" headerUrl
    output := ((value "output").map Path.mk).getD base.output
    typescript := p.has "typescript"
    lookahead := ((value "lookahead").bind readCount?).getD base.lookahead
    structName := (value "struct-name").getD base.structName
    canonicalUrl := dispatcherUrl }

/-- The summary of a registry. -/
def summary (registry : Registry) : String :=
  "Command Summary:\n" ++ "".intercalate (registry.categoryCounts.map fun (category, count) =>
    "  " ++ category.label ++ ": " ++ toString count ++ " commands\n")

variable {m : Type → Type} [Monad m] [FileStore m]

/-- Runs the program. -/
def run (fetch : String → Except String String) (today : String)
    (environment : List (String × String)) (arguments : List String) : m Exit := do
  match interface.read arguments with
  | .error stop => return interface.stopped stop
  | .ok p =>
    match ← Publication.publish fetch (settings today environment p) with
    | .ok published => return .success (summary published.registry)
    | .error failure => return .failure failure.message

end CliParity.CommandLine.PublishTool
