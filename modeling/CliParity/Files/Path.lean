import CliParity.Text.Search

/-!
# Paths

A path is kept as it is written, since messages show it so. What it leads to depends only on its
steps: names, and steps up. `parent?` and `withExtension` give other paths as they would be written.
-/

set_option autoImplicit false

namespace CliParity

/-- A path as it is written. -/
structure Path where
  text : String
  deriving DecidableEq, Repr

namespace Path

open Text

/-- The stretches between slashes. -/
def parts (p : Path) : List (List Char) := p.text.toList.splitOn '/'

/-- The parts that lead somewhere: names and steps up. Empty parts and single points stay where they
are. -/
def steps (p : Path) : List String :=
  (p.parts.filter fun part => !(part.isEmpty || part == ['.'])).map String.ofList

/-- The path ends in a step rather than a name that a file could be made under: in a slash, in a
single point, or in a step up. -/
def endsInStep (p : Path) : Bool :=
  match p.parts.getLast? with
  | some part => part.isEmpty || part == ['.'] || part == ['.', '.']
  | none => true

/-- The path ends in a single point, perhaps before some slashes, so what is in front of it has to
be a directory. -/
def endsInPoint (p : Path) : Bool :=
  (p.parts.filter fun part => !part.isEmpty).getLast? == some ['.']

/-! ## Limits -/

/-- The most bytes that a name may have. -/
def maxNameSize : Nat := 255

/-- The most bytes that a path may have: the system keeps 4096 for it and the NUL that ends it. -/
def maxSize : Nat := 4095

/-! ## Parents -/

/-- A path from its end, without the slashes and single points that it ends in. A leading slash or
point stays. -/
def trimSteps : List Char → List Char
  | '/' :: c :: s => trimSteps (c :: s)
  | '.' :: '/' :: s => trimSteps ('/' :: s)
  | s => s

/-- The path without its last part; none for the empty path and for the root. -/
def parent? (p : Path) : Option Path :=
  match trimSteps p.text.toList.reverse with
  | [] => none
  | ['/'] => none
  | s => some ⟨String.ofList (trimSteps (s.dropWhile (· != '/'))).reverse⟩

/-! ## Extensions -/

/-- A file name without its extension: what is in front of the last point. A point at the very start
begins no extension. -/
def stem (name : List Char) : List Char :=
  match cutLast? ['.'] name with
  | some (front, _) => if front.isEmpty then name else front
  | none => name

/-- A file name with its extension replaced. Where cutting the old extension leaves two points, a
step up, there is no name to extend and the step up is the result. -/
def extendName (name extension : List Char) : List Char :=
  if stem name = ['.'] then ['.', '.'] else stem name ++ '.' :: extension

/-- The path with the extension of its last part replaced. The last part is what is behind the last
slash, even where that is empty or a single point: `d/` becomes `d/.ts`. The usual rule passes over
such parts and gives `d.ts`. No file can be written under a path that ends so, hence none is
published beside it, and no run meets the difference. -/
def withExtension (p : Path) (extension : String) : Path :=
  let s := p.text.toList.reverse
  let name := (s.takeWhile (· != '/')).reverse
  let front := (s.dropWhile (· != '/')).reverse
  ⟨String.ofList (front ++ extendName name extension.toList)⟩

end Path

end CliParity
