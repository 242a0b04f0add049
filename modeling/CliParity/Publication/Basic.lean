import CliParity.Files.Store
import CliParity.Publication.Settings
import CliParity.Registry.Document
import CliParity.Registry.Listing

/-!
# Publishing a registry

`publish` loads the dispatcher and the header, assembles the registry and writes it: the document
first, then the TypeScript module if one is asked for. Both sources are loaded before anything is
written. What a fetch of an address gives is a parameter.
-/

set_option autoImplicit false

namespace CliParity.Publication

/-- Why a registry was not published. -/
inductive Failure
  /-- An address could not be fetched, for the reason given. -/
  | fetch (reason : String)
  | read (path : Path) (cause : FileError)
  | createDirs (path : Path) (cause : FileError)
  | write (path : Path) (cause : FileError)
  deriving DecidableEq, Repr

namespace Failure

/-- What went wrong, without the cause. -/
def message : Failure → String
  | fetch reason => reason
  | read path _ => "failed to read " ++ path.text
  | createDirs path _ => "failed to create " ++ path.text
  | write path _ => "failed to write " ++ path.text

/-- The cause that the system gave. -/
def cause? : Failure → Option FileError
  | fetch _ => none
  | read _ cause => some cause
  | createDirs _ cause => some cause
  | write _ cause => some cause

/-- What went wrong and its cause. -/
def fullMessage (f : Failure) : String :=
  ": ".intercalate (f.message :: (f.cause?.map FileError.message).toList)

end Failure

/-- What was published. -/
structure Published where
  registry : Registry
  /-- Where the document was written. -/
  jsonPath : Path
  /-- Where the TypeScript module was written. -/
  typescriptPath : Option Path
  deriving DecidableEq, Repr

/-- The registry of a dispatcher and a header. -/
def registryOf (s : Settings) (dispatcher header : String) : Registry :=
  .assemble (Dispatcher.extract ⟨s.lookahead, .meshCore⟩ dispatcher) (layout s.structName header)
    ⟨s.version, s.sourceUrl, generator⟩

variable {m : Type → Type} [Monad m] [FileStore m]

/-- The text of a source. -/
def load (fetch : String → Except String String) (source : Source) :
    m (Except Failure String) := do
  match source with
  | .url address =>
    match fetch address with
    | .ok text => return .ok text
    | .error reason => return .error (.fetch reason)
  | .file path =>
    match ← FileStore.readText path with
    | .ok text => return .ok text
    | .error cause => return .error (.read path cause)

/-- Makes the directory that a file will be in. A path of one part needs none. -/
def makeParent (path : Path) : m (Except Failure Unit) := do
  match path.parent? with
  | none => return .ok ()
  | some parent =>
    if parent.text = "" then return .ok ()
    else
      match ← FileStore.createDirs parent with
      | .ok () => return .ok ()
      | .error cause => return .error (.createDirs parent cause)

/-- Writes a file, and makes the directory that it will be in. -/
def save (path : Path) (text : String) : m (Except Failure Unit) := do
  match ← makeParent path with
  | .error f => return .error f
  | .ok () =>
    match ← FileStore.writeText path text with
    | .ok () => return .ok ()
    | .error cause => return .error (.write path cause)

/-- Writes a registry where the settings say. -/
def saveRegistry (s : Settings) (registry : Registry) : m (Except Failure Published) := do
  match ← save s.output registry.render with
  | .error f => return .error f
  | .ok () =>
    if s.typescript then
      match ← save s.typescriptPath registry.listing with
      | .error f => return .error f
      | .ok () => return .ok ⟨registry, s.output, some s.typescriptPath⟩
    else
      return .ok ⟨registry, s.output, none⟩

/-- Publishes the registry of the sources that the settings name. -/
def publish (fetch : String → Except String String) (s : Settings) :
    m (Except Failure Published) := do
  match ← load fetch s.dispatcher with
  | .error f => return .error f
  | .ok dispatcher =>
    match ← load fetch s.header with
    | .error f => return .error f
    | .ok header => saveRegistry s (registryOf s dispatcher header)

end CliParity.Publication
