import CliParity.Command.Catalog
import CliParity.Command.ReplyFormat
import CliParity.Dispatcher.Comparison
import CliParity.Dispatcher.Line

/-!
# The commands of a dispatcher

`extract` recovers the commands that a dispatcher answers to from its text, in one pass over the
lines. Each line updates the scan's `Context`; a line with a comparison yields the descriptor of a
command, from the context and a window of lines that starts with it; a name met again is dropped.
The scan never fails: on a text of another shape it finds less.
-/

set_option autoImplicit false

namespace CliParity.Dispatcher

open Text

/-! ## Context -/

/-- What the lines so far say about the place of the next one. -/
structure Context where
  /-- The block of reads or writes that the scan is in. -/
  block : Option Block
  /-- A guard for the serial console was seen and no other branch has started since. This is one
  flag and no stack: a branch inside the guarded one ends it too. -/
  serialOnly : Bool
  deriving DecidableEq, Repr

namespace Context

/-- The context before the first line. -/
def initial : Context := ⟨none, false⟩

/-- The block after a line: one that it opens, a read block first, or else the one before unless the
line leaves it. -/
def blockAt (block : Option Block) (line : List Char) : Option Block :=
  if Block.get.isOpenedBy line then some .get
  else if Block.set.isOpenedBy line then some .set
  else block.filter fun b => !leavesBlock b.word line

/-- The context for a comparison on this line. -/
def enter (context : Context) (line : List Char) : Context where
  block := blockAt context.block line
  serialOnly := context.serialOnly || guardsSerial line

/-- The context once this line is done: a line that starts another branch ends the guard, also one
of its own. -/
def leave (context : Context) (line : List Char) : Context :=
  if startsElse line then { context with serialOnly := false } else context

end Context

/-! ## Descriptors -/

/-- How the scan is done. -/
structure Settings where
  /-- How many lines, from that of a comparison on, are searched for its reply and arguments. -/
  lookahead : Nat
  /-- What is known about the commands. -/
  catalog : Catalog

namespace Settings

/-- The lookahead where none is asked for. -/
def defaultLookahead : Nat := 15

/-- The settings for the firmware of MeshCore. -/
def meshCore : Settings := ⟨defaultLookahead, .meshCore⟩

end Settings

/-- The full name and category of a compared command. A setting compared in a block of reads or
writes has the block's word in front and its category. -/
def nameAndCategory (block : Option Block) (comparison : Comparison) : String × Category :=
  let keyword := String.ofList (trim comparison.literal)
  match comparison.subject, block with
  | .config, some block => (block.word ++ keyword, block.category)
  | .config, none => (keyword, .config)
  | .command, _ => (keyword, .ofName keyword)

/-- The descriptor of a compared command, of which the first reply template and all argument
conversions come from the window. -/
def describe (catalog : Catalog) (context : Context) (comparison : Comparison)
    (window : List (List Char)) : Command :=
  let (name, category) := nameAndCategory context.block comparison
  let arguments := (window.filterMap argumentType?).map Argument.inferred
  { name, category, arguments
    replyFormat := replyFormat ((window.findSome? replyTemplate?).map String.ofList)
    description := catalog.describe name
    serialOnly := context.serialOnly || catalog.isSerialOnly name
    takesArgument := comparison.takesArgument || !arguments.isEmpty }

/-! ## Extraction -/

/-- The descriptors of all comparisons, the first of each line, in order. -/
def descriptors (settings : Settings) (context : Context) : List (List Char) → List Command
  | [] => []
  | line :: rest =>
    let here := context.enter line
    let found := (Comparison.first? line).map fun comparison =>
      describe settings.catalog here comparison ((line :: rest).take settings.lookahead)
    found.toList ++ descriptors settings (here.leave line) rest

/-- The commands whose name is not in `seen` and does not come earlier in the list. -/
def firstOfEachName (seen : List String) : List Command → List Command
  | [] => []
  | command :: rest =>
    if command.name ∈ seen then firstOfEachName seen rest
    else command :: firstOfEachName (command.name :: seen) rest

/-- The commands of a dispatcher, in the order of their first comparison. -/
def extract (settings : Settings) (source : String) : List Command :=
  firstOfEachName [] (descriptors settings .initial (lines source.toList))

end CliParity.Dispatcher
