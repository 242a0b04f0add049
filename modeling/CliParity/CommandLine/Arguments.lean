import CliParity.CommandLine.Interface
import CliParity.Text.Search

/-!
# Program arguments

The arguments of a program are options and operands in any order. An option has a long name,
`--name`, and perhaps a letter, `-n`. Letters may be written together; the value of an option is the
rest of its argument, after an equals sign if there is one, or the next argument. After `--` all
arguments are operands. No option may be given twice.

Arguments are taken from left to right, and the first that is in error, or asks for the version or
for help, ends the reading.
-/

set_option autoImplicit false

namespace CliParity.CommandLine

open Text

/-- What the arguments so far say. -/
structure Progress where
  /-- The names and values of the options given; a flag has an empty value. -/
  given : List (String × String)
  operands : List String
  /-- An option whose value is the next argument. -/
  waiting : Option OptionSpec
  /-- All further arguments are operands. -/
  operandsOnly : Bool
  deriving DecidableEq, Repr

namespace Progress

/-- Nothing so far. -/
def start : Progress := ⟨[], [], none, false⟩

/-- The value of an option. -/
def value? (p : Progress) (name : String) : Option String := p.given.lookup name

/-- An option is given. -/
def has (p : Progress) (name : String) : Bool := (p.value? name).isSome

/-- Takes an option without a value. -/
def setFlag (p : Progress) (o : OptionSpec) : Except Stop Progress :=
  if p.has o.name then .error (.usage (.repeated o.name))
  else .ok { p with given := p.given ++ [(o.name, "")] }

/-- Takes an option with its value. -/
def setValue (p : Progress) (o : OptionSpec) (kind : Value) (value : String) :
    Except Stop Progress :=
  if p.has o.name then .error (.usage (.repeated o.name))
  else if kind.accepts value then .ok { p with given := p.given ++ [(o.name, value)] }
  else .error (.usage (.valueInvalid o.name value))

/-- Takes an operand. -/
def addOperand (p : Progress) (i : Interface) (argument : String) : Except Stop Progress :=
  match i.operand with
  | none => .error (.usage (.unknown argument))
  | some name =>
    if !p.operands.isEmpty then .error (.usage (.unknown argument))
    else if Value.path.accepts argument then .ok { p with operands := [argument] }
    else .error (.usage (.valueInvalid name argument))

/-- Takes a long option, with the value that stands after its equals sign if there is one. -/
def takeLong (p : Progress) (i : Interface) (name : String) (value : Option String) :
    Except Stop Progress :=
  match i.options.find? (·.name == name), value with
  | some o, value =>
    match o.value, value with
    | none, none => p.setFlag o
    | none, some _ => .error (.usage (.valueUnexpected name))
    | some _, none => .ok { p with waiting := some o }
    | some kind, some v => p.setValue o kind v
  | none, none =>
    if name = "version" then .error .version
    else if name = "help" then .error .help
    else .error (.usage (.unknown name))
  | none, some _ => .error (.usage (.unknown name))

/-- Takes letters that are written together. -/
def takeLetters (p : Progress) (i : Interface) : List Char → Except Stop Progress
  | [] => .ok p
  | letter :: rest =>
    match i.options.find? (·.letter == some letter) with
    | some o =>
      match o.value with
      | none =>
        match p.setFlag o with
        | .ok next => next.takeLetters i rest
        | .error stop => .error stop
      | some kind =>
        if rest.isEmpty then .ok { p with waiting := some o }
        else p.setValue o kind (String.ofList (skipOptional '=' rest))
    | none =>
      if letter = 'V' then .error .version
      else if letter = 'h' then .error .help
      else .error (.usage (.unknown (String.ofList ['-', letter])))

/-- Takes an argument that starts with a dash and goes on. -/
def takeOption (p : Progress) (i : Interface) (argument : List Char) : Except Stop Progress :=
  match argument with
  | '-' :: '-' :: name =>
    match cutFirst? ['='] name with
    | some (name, value) => p.takeLong i (String.ofList name) (some (String.ofList value))
    | none => p.takeLong i (String.ofList name) none
  | _ :: letters => p.takeLetters i letters
  | [] => .ok p

/-- An argument is written as an option. A dash alone is a value or an operand. -/
def isOption : List Char → Bool
  | '-' :: _ :: _ => true
  | _ => false

/-- Takes the next argument. -/
def take (i : Interface) (p : Progress) (argument : String) : Except Stop Progress :=
  if p.operandsOnly then p.addOperand i argument
  else
    match p.waiting, isOption argument.toList with
    | some o, true => .error (.usage (.valueMissing o.name))
    | some o, false =>
      { p with waiting := none }.setValue o (o.value.getD .text) argument
    | none, true =>
      if argument = "--" then .ok { p with operandsOnly := true }
      else p.takeOption i argument.toList
    | none, false => p.addOperand i argument

/-- Accepts the arguments as complete. -/
def finish (i : Interface) (p : Progress) : Except Stop Progress :=
  match p.waiting with
  | some o => .error (.usage (.valueMissing o.name))
  | none =>
    match i.operand with
    | some name =>
      if p.operands.isEmpty then .error (.usage (.operandMissing name)) else .ok p
    | none => .ok p

end Progress

namespace Interface

/-- Reads the arguments of a program. -/
def read (i : Interface) (arguments : List String) : Except Stop Progress :=
  (arguments.foldlM (Progress.take i) .start).bind (Progress.finish i)

end Interface

end CliParity.CommandLine
