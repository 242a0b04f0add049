import CliParity.Dispatcher.Extraction
import CliParity.Files.Path
import CliParity.Preferences.Layout

/-!
# What to publish and where

The settings of one publication: where the dispatcher and the header come from, where the registry
goes, and what it is stamped with.
-/

set_option autoImplicit false

namespace CliParity.Publication

/-- Where a source text comes from. -/
inductive Source
  /-- Fetched from an address. -/
  | url (address : String)
  /-- Read from a stored file. -/
  | file (path : Path)
  deriving DecidableEq, Repr

namespace Source

/-- The address or the path. -/
def display : Source → String
  | url address => address
  | file path => path.text

end Source

/-- The address of the firmware's dispatcher. -/
def dispatcherUrl : String :=
  "https://raw.githubusercontent.com/meshcore-dev/MeshCore/main/src/helpers/CommonCLI.cpp"

/-- The address of the header that declares the preferences struct. -/
def headerUrl : String :=
  "https://raw.githubusercontent.com/meshcore-dev/MeshCore/main/src/helpers/CommonCLI.h"

/-- Where the registry is written if no other path is asked for. -/
def defaultOutput : Path := ⟨"meshcore-commands.json"⟩

/-- The tool that a published registry names as its generator. -/
def generator : String := "meshcore-cli-parse"

/-- The settings of one publication. -/
structure Settings where
  dispatcher : Source
  header : Source
  /-- Where the JSON document is written. -/
  output : Path
  /-- Whether the TypeScript module is written too, beside the document. -/
  typescript : Bool
  lookahead : Nat
  /-- The struct whose fields are published. -/
  structName : String
  /-- The day that the registry is stamped with. -/
  version : String
  /-- The address that the registry is stamped with if the dispatcher is a stored file. -/
  canonicalUrl : String
  deriving DecidableEq, Repr

namespace Settings

/-- The settings where nothing else is asked for, on a given day. -/
def defaults (version : String) : Settings where
  dispatcher := .url dispatcherUrl
  header := .url headerUrl
  output := defaultOutput
  typescript := false
  lookahead := Dispatcher.Settings.defaultLookahead
  structName := defaultStructName
  version := version
  canonicalUrl := dispatcherUrl

/-- The address that the registry is stamped with. -/
def sourceUrl (s : Settings) : String :=
  match s.dispatcher with
  | .url address => address
  | .file _ => s.canonicalUrl

/-- The path of the TypeScript module. -/
def typescriptPath (s : Settings) : Path := s.output.withExtension "ts"

end Settings

end CliParity.Publication
