import CliParity.CommandLine.Exit
import CliParity.Patch.Target

/-!
# The program that patches the repeater's command line

`mesh-cli-patch` patches a file, or with `--check` tells which patches it lacks and changes nothing.
-/

set_option autoImplicit false

namespace CliParity.CommandLine.PatchTool

/-- The arguments of the program. -/
def interface : Interface where
  program := "mesh-cli-patch"
  version := "0.1.0"
  options :=
    [⟨"check", none, none, "Report pending patches without writing (exit 1 if any)"⟩]
  operand := some "PATH"

/-- The answer for a file that no patch changes. -/
def unchanged (path : Path) : Exit :=
  .success ("○ No changes needed for " ++ path.text ++ "\n")

/-- The answer for a file that was patched. -/
def patched (path : Path) (applied : List String) : Exit :=
  .success ("✓ Patched " ++ path.text ++ "\n  Applied: " ++ ", ".intercalate applied ++ "\n")

/-- The answer for a file that lacks some patches. -/
def lacking (path : Path) (pending : List String) : Exit :=
  .refusal ("✗ " ++ path.text ++ " needs patching\n  Pending: " ++ ", ".intercalate pending ++ "\n")

/-- The answer where a file cannot be patched. That it is missing is part of the program's report;
any other error is a failure. -/
def failed (e : Patch.TargetError) : Exit :=
  match e with
  | .notFound _ => .refusal ("Error: " ++ e.message ++ "\n")
  | _ => .failure e.message

variable {m : Type → Type} [Monad m] [FileStore m]

/-- Tells which patches a file lacks. -/
def check (path : Path) : m Exit := do
  match ← Patch.pending path with
  | .error e => return failed e
  | .ok pending => return if pending.isEmpty then unchanged path else lacking path pending

/-- Patches a file. -/
def change (path : Path) : m Exit := do
  match ← Patch.patchFile path with
  | .error e => return failed e
  | .ok .unchanged => return unchanged path
  | .ok (.patched applied) => return patched path applied

/-- Runs the program. -/
def run (arguments : List String) : m Exit := do
  match interface.read arguments with
  | .error stop => return interface.stopped stop
  | .ok p =>
    let path : Path := ⟨p.operands.headD ""⟩
    if p.has "check" then check path else change path

end CliParity.CommandLine.PatchTool
