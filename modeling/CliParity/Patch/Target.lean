import CliParity.Files.Store
import CliParity.Patch.Catalogue

/-!
# Patching a file

`pending` tells which patches of the catalogue would change a file, and `patchFile` changes it. The
file is written only if its text changes.
-/

set_option autoImplicit false

namespace CliParity

namespace Patch

/-- Why a file was not patched. -/
inductive TargetError
  /-- The path leads to nothing. -/
  | notFound (path : Path)
  | unreadable (path : Path) (cause : FileError)
  | unwritable (path : Path) (cause : FileError)
  deriving DecidableEq, Repr

namespace TargetError

/-- What went wrong, without the cause. -/
def message : TargetError → String
  | notFound path => path.text ++ " not found"
  | unreadable path _ => "failed to read " ++ path.text
  | unwritable path _ => "failed to write " ++ path.text

/-- The cause that the system gave. -/
def cause? : TargetError → Option FileError
  | notFound _ => none
  | unreadable _ cause => some cause
  | unwritable _ cause => some cause

end TargetError

/-- What was done to a file. -/
inductive Report
  /-- The file was written; these patches changed it. -/
  | patched (applied : List String)
  /-- No patch makes a difference, and nothing was written. -/
  | unchanged
  deriving DecidableEq, Repr

variable {m : Type → Type} [Monad m] [FileStore m]

/-- The text of the file to be patched. -/
def readTarget (path : Path) : m (Except TargetError String) := do
  if ← FileStore.isPresent path then
    match ← FileStore.readText path with
    | .ok text => return .ok text
    | .error cause => return .error (.unreadable path cause)
  else
    return .error (.notFound path)

/-- The names of the patches that would change a file. -/
def pending (path : Path) : m (Except TargetError (List String)) := do
  match ← readTarget path with
  | .ok text => return .ok (applyAll catalogue text.toList).applied
  | .error e => return .error e

/-- Patches a file. -/
def patchFile (path : Path) : m (Except TargetError Report) := do
  match ← readTarget path with
  | .error e => return .error e
  | .ok text =>
    let outcome := applyAll catalogue text.toList
    if outcome.changed then
      match ← FileStore.writeText path (String.ofList outcome.content) with
      | .ok () => return .ok (.patched outcome.applied)
      | .error cause => return .error (.unwritable path cause)
    else
      return .ok .unchanged

end Patch

end CliParity
