import CliParity.Text.Digit
import CliParity.Text.Scan

/-!
# Comparisons with a command literal

The firmware's dispatcher decides which command was sent by comparing the head of its input with a
literal: `memcmp(command, "clock", 5)`. White space is free around the parts.
-/

set_option autoImplicit false

namespace CliParity.Dispatcher

open Text

/-- What a literal is compared with. -/
inductive Subject
  /-- The whole command line. -/
  | command
  /-- What follows `get ` or `set ` in it. -/
  | config
  deriving DecidableEq, Repr

namespace Subject

/-- The variable that holds the subject. -/
def variableName : Subject → String
  | command => "command"
  | config => "config"

/-- Reads the variable of a subject. -/
def read? (s : List Char) : Option (Subject × List Char) :=
  ((after? command.variableName.toList s).map (command, ·)).or
    ((after? config.variableName.toList s).map (config, ·))

end Subject

/-- A comparison with a command literal. -/
structure Comparison where
  subject : Subject
  /-- The literal as written, white space included. -/
  literal : List Char
  /-- The length argument, if it is a number that a word holds. It need not fit the literal. -/
  declaredLength : Option Nat
  deriving DecidableEq, Repr

namespace Comparison

/-- An argument follows the command: its literal ends in white space. -/
def takesArgument (c : Comparison) : Bool := endsInBlank c.literal

/-- What comes between `memcmp` and the closing parenthesis, and the rest after it. -/
def readTail? (s : List Char) : Option (Comparison × List Char) := do
  let s ← after? ['('] (skipBlanks s)
  let (subject, s) ← Subject.read? (skipBlanks s)
  let s ← after? [','] (skipBlanks s)
  let s ← after? ['"'] (skipBlanks s)
  let (literal, s) ← run? (· != '"') s
  let s ← after? ['"'] s
  let s ← after? [','] (skipBlanks s)
  let (digits, s) ← run? isDigit (skipBlanks s)
  let s ← after? [')'] (skipBlanks s)
  return (⟨subject, literal, wordValue? digits⟩, s)

/-- Reads a comparison. -/
def read? (s : List Char) : Option (Comparison × List Char) :=
  (after? "memcmp".toList s).bind readTail?

/-- The leftmost comparison in a text. -/
def first? (s : List Char) : Option Comparison := firstMatch? read? s

end Comparison

end CliParity.Dispatcher
