import CliParity.Command.Basic
import CliParity.Text.Scan
import CliParity.Text.Search

/-!
# What a line of the dispatcher shows

Besides comparisons, a line may write a reply template, convert an argument, guard a branch for the
serial console, open or leave the block of reads or writes, or start another branch. Each of these
is told from the line alone.
-/

set_option autoImplicit false

namespace CliParity.Dispatcher

open Text

/-! ## Replies -/

/-- Reads a call of `function` that writes a literal to `reply`, up to the end of the literal. -/
def readReply? (function : String) (s : List Char) : Option (List Char × List Char) := do
  let s ← after? function.toList s
  let s ← after? ['('] (skipBlanks s)
  let s ← after? "reply".toList (skipBlanks s)
  let s ← after? [','] (skipBlanks s)
  let s ← after? ['"'] (skipBlanks s)
  let literal := s.takeWhile (· != '"')
  let s ← after? ['"'] (s.dropWhile (· != '"'))
  return (literal, s)

/-- The functions that write a reply, the preferred one first. -/
def replyFunctions : List String := ["sprintf", "strcpy"]

/-- The reply template on a line: the literal of the leftmost call of the preferred function, unless
it is empty, and else that of the other function. -/
def replyTemplate? (line : List Char) : Option (List Char) :=
  replyFunctions.findSome? fun function =>
    (firstMatch? (readReply? function) line).filter fun literal => !literal.isEmpty

/-! ## Arguments -/

/-- The calls that convert an argument, in order of precedence. -/
def conversionCalls : List (String × ArgumentType) :=
  [("atof(", .float), ("atoi(", .int), ("strncpy(", .string)]

/-- What the argument on a line is converted to. -/
def argumentType? (line : List Char) : Option ArgumentType :=
  (conversionCalls.find? fun (call, _) => contains line call.toList).map (·.2)

/-! ## Guards and branches -/

/-- Reads the test that the input came without a sender's time stamp, from the serial console. -/
def readSerialGuard? (s : List Char) : Option (Unit × List Char) := do
  let s ← after? "sender_timestamp".toList s
  let s ← after? "==".toList (skipBlanks s)
  let s ← after? ['0'] (skipBlanks s)
  return ((), s)

/-- The branch on this line runs for input from the serial console only. -/
def guardsSerial (line : List Char) : Bool := (firstMatch? readSerialGuard? line).isSome

/-- The line starts another branch of the conditional. -/
def startsElse (line : List Char) : Bool := "\x7d else".toList.isPrefixOf (trim line)

/-! ## Blocks of reads and writes -/

/-- A block of the dispatcher whose comparisons are with the name of a setting. -/
inductive Block
  | get
  | set
  deriving DecidableEq, Repr

namespace Block

/-- The word, with its blank, in front of a setting's name. -/
def word : Block → String
  | get => "get "
  | set => "set "

/-- The category of the commands compared in a block. -/
def category : Block → Category
  | get => .get
  | set => .set

/-- The texts of which one on a line opens the block. -/
def openings : Block → List String
  | get => ["GET commands", "memcmp(command, \"get \", 4)"]
  | set => ["SET commands", "memcmp(command, \"set \", 4)"]

/-- The line opens this block. -/
def isOpenedBy (block : Block) (line : List Char) : Bool :=
  block.openings.any fun opening => contains line opening.toList

end Block

/-- The line is another branch on the whole command that does not name `word`, and so leaves a block
with that word. -/
def leavesBlock (word : String) (line : List Char) : Bool :=
  contains line "\x7d else if (memcmp(command".toList && !contains line word.toList

end CliParity.Dispatcher
