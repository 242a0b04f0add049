import CliParity.Files.Store
import CliParity.OrderedMap

/-!
# Trees of files

A `Tree` is all that is stored below one directory. It stands for the machine's files where what a
program does to them is to be known: the operations are functions on trees, with the errors of the
system.

Some of what a system does is left out. The root is the working directory too, so a path without a
leading slash starts there as well. There are no links: different places hold different files.
Permission is never refused and space never runs out, so a file that can be read can be written
over. What is shown of trees says nothing about refusals of these kinds.
-/

set_option autoImplicit false

namespace CliParity

/-- What is stored at a place. -/
inductive Entry
  | file (content : ByteArray)
  | dir

/-- A place in a tree: the names that lead there, the last first. The root is the empty list. -/
abbrev Location := List String

/-- The files and directories below a root, which is a directory itself. Each stands under its place
as it is written from the root. -/
abbrev Tree := OrderedMap String Entry

namespace Tree

/-- A tree without files. -/
def empty : Tree := OrderedMap.empty

/-- A place as it is written, from the root. -/
def writeLocation (here : Location) : String := "/".intercalate here.reverse

/-- What is stored at a place. -/
def entry? (t : Tree) : Location → Option Entry
  | [] => some .dir
  | here => t.get? (writeLocation here)

/-- Stores an entry at a place. -/
def put (t : Tree) (here : Location) (e : Entry) : Tree := t.insert (writeLocation here) e

/-! ## Following paths -/

/-- What the system finds at a place in a directory. It looks up no name that is too long. -/
def lookup (t : Tree) : Location → Except FileError (Option Entry)
  | [] => .ok (some .dir)
  | name :: above =>
    if name.utf8ByteSize > Path.maxNameSize then .error .nameTooLong
    else .ok (t.entry? (name :: above))

/-- The place that some steps lead to from `here`. Every step needs a directory to start from; the
last one may lead to a place where nothing is. The root is above itself. -/
def walk (t : Tree) (here : Location) : List String → Except FileError Location
  | [] => .ok here
  | step :: rest =>
    match t.lookup here with
    | .error e => .error e
    | .ok none => .error .notFound
    | .ok (some (.file _)) => .error .notDirectory
    | .ok (some .dir) =>
      if step = ".." then t.walk here.tail rest else t.walk (step :: here) rest

/-- The place that a path leads to. The empty path leads nowhere. -/
def locate (t : Tree) (p : Path) : Except FileError Location :=
  match p.fault? with
  | some e => .error e
  | none => if p.text = "" then .error .notFound else t.walk [] p.steps

/-- What a path leads to. A path that ends in a step needs a directory. -/
def find (t : Tree) (p : Path) : Except FileError Entry :=
  match t.locate p with
  | .error e => .error e
  | .ok here =>
    match t.lookup here with
    | .error e => .error e
    | .ok none => .error .notFound
    | .ok (some .dir) => .ok .dir
    | .ok (some (.file content)) =>
      if p.endsInStep then .error .notDirectory else .ok (.file content)

/-! ## Reading and writing -/

/-- Whether a path leads to something. -/
def isPresent (t : Tree) (p : Path) : Bool :=
  match t.find p with
  | .ok _ => true
  | .error _ => false

/-- The text of a file. -/
def readText (t : Tree) (p : Path) : Except FileError String :=
  match t.find p with
  | .error e => .error e
  | .ok .dir => .error .isDirectory
  | .ok (.file content) =>
    match String.fromUTF8? content with
    | some text => .ok text
    | none => .error .notText

/-- Writes a file, over one that is there or new. No file can be made under a path that ends in a
step; if the step is a slash, the name in front of it is not even looked up. -/
def write (t : Tree) (p : Path) (content : ByteArray) : Except FileError Tree :=
  match t.locate p with
  | .error e => .error e
  | .ok here =>
    if p.endsInStep && !p.endsInPoint then .error .isDirectory
    else
      match t.lookup here with
      | .error e => .error e
      | .ok (some .dir) => .error .isDirectory
      | .ok (some (.file _)) =>
        if p.endsInPoint then .error .notDirectory else .ok (t.put here (.file content))
      | .ok none =>
        if p.endsInPoint then .error .notFound else .ok (t.put here (.file content))

/-- Removes what is stored at the end of a path. -/
def remove (t : Tree) (p : Path) : Except FileError Tree :=
  match t.find p, t.locate p with
  | .ok _, .ok here => .ok (t.erase (writeLocation here))
  | .error e, _ => .error e
  | _, .error e => .error e

/-! ## Directories -/

/-- Makes the directories that some steps lead to from `here`, a directory, as far as they are
missing. Those that are made stay when a later one fails.

The system is asked for the last directory first and for those above it only if one is missing. So a
file in the way is met on the way to another place, unless it is in the place of the last directory
or one above it was `made`: from there on each is asked for by itself. -/
def makeDirs (t : Tree) (here : Location) (made : Bool) :
    List String → Except FileError Unit × Tree
  | [] => (.ok (), t)
  | step :: rest =>
    if step = ".." then t.makeDirs here.tail made rest
    else
      match t.lookup (step :: here) with
      | .error e => (.error e, t)
      | .ok (some .dir) => t.makeDirs (step :: here) made rest
      | .ok (some (.file _)) =>
        (.error (if made || rest.isEmpty then .alreadyExists else .notDirectory), t)
      | .ok none => (t.put (step :: here) .dir).makeDirs (step :: here) true rest

/-- Makes the directory at the end of a path and those that it is in. A single point at the end is
passed over: `x/.` makes `x`, where the system would miss the `x` that the point is in. Only parents
of paths (`Path.parent?`) are made in this way, and behind a slash none ends so. -/
def createDirs (t : Tree) (p : Path) : Except FileError Unit × Tree :=
  match p.fault? with
  | some e => (.error e, t)
  | none => t.makeDirs [] false p.steps

/-! ## Trees as stores -/

/-- Writes a text; a failure leaves the tree as it is. -/
def writeText (t : Tree) (p : Path) (text : String) : Except FileError Unit × Tree :=
  match t.write p text.toUTF8 with
  | .ok written => (.ok (), written)
  | .error e => (.error e, t)

instance : FileStore (StateM Tree) where
  isPresent p := fun t => (t.isPresent p, t)
  readText p := fun t => (t.readText p, t)
  createDirs p := fun t => t.createDirs p
  writeText p text := fun t => t.writeText p text

end Tree

end CliParity
