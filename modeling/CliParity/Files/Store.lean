import CliParity.Files.Path

/-!
# Stored files

What the programs ask of the place where files are stored. A `FileStore` may be the machine's own
files or a value that stands for them: see `Tree`. Some paths lead nowhere in any store, whatever it
holds: `Path.fault?`.
-/

set_option autoImplicit false

namespace CliParity

/-- Why an operation on a file failed. -/
inductive FileError
  /-- Nothing is there. -/
  | notFound
  /-- Something is there already. -/
  | alreadyExists
  /-- The path leads through something that is no directory. -/
  | notDirectory
  /-- A directory is there. -/
  | isDirectory
  /-- The file is not encoded as UTF-8. -/
  | notText
  /-- The path, or a name on the way, is longer than the system allows. -/
  | nameTooLong
  /-- The path holds a NUL, which would end it early. -/
  | holdsNul
  /-- Something else, as the system reports it. -/
  | other (report : String)
  deriving DecidableEq, Repr

namespace FileError

/-- The system's words for the error. -/
def message : FileError → String
  | notFound => "No such file or directory (os error 2)"
  | alreadyExists => "File exists (os error 17)"
  | notDirectory => "Not a directory (os error 20)"
  | isDirectory => "Is a directory (os error 21)"
  | notText => "stream did not contain valid UTF-8"
  | nameTooLong => "File name too long (os error 36)"
  | holdsNul => "file name contained an unexpected NUL byte"
  | other report => report

end FileError

namespace Path

/-- What is wrong with a path before it is followed. -/
def fault? (p : Path) : Option FileError :=
  if p.text.toList.contains '\x00' then some .holdsNul
  else if p.text.utf8ByteSize > maxSize then some .nameTooLong
  else none

end Path

/-- A place where files are stored. -/
class FileStore (m : Type → Type) where
  /-- Whether a path leads to a file or directory. -/
  isPresent : Path → m Bool
  /-- The text of a file. -/
  readText : Path → m (Except FileError String)
  /-- Makes a directory and those that it is in, as far as they are missing. -/
  createDirs : Path → m (Except FileError Unit)
  /-- Writes a text over a file, or to a new one. -/
  writeText : Path → String → m (Except FileError Unit)

end CliParity
