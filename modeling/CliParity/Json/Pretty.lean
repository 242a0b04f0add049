import CliParity.Json.Basic
import CliParity.Json.Quoted

/-!
# Writing JSON

`Json.pretty` lays a value out over several lines: every item and member on a line of its own,
indented by two blanks for each container around it, and empty containers without a line break.
-/

set_option autoImplicit false

namespace CliParity.Json

/-- A string. One without a text is written as half of a surrogate pair. -/
def writeContent : Content → List Char
  | some text => Quoted.write text.toList
  | none => "\"\\ud800\"".toList

/-- A value without parts. -/
def Scalar.write : Scalar → List Char
  | null => "null".toList
  | bool true => "true".toList
  | bool false => "false".toList
  | number numeral => numeral.toList
  | str content => writeContent content

/-- A line break, and the indentation of the next line. -/
def newline (depth : Nat) : List Char := '\n' :: List.replicate (2 * depth) ' '

mutual

/-- A value within `depth` containers. -/
def layOut (depth : Nat) : Json → List Char
  | .scalar s => s.write
  | .arr [] => ['[', ']']
  | .arr (v :: vs) =>
    '[' :: newline (depth + 1) ++ layOut (depth + 1) v ++ layOutItems (depth + 1) vs ++
      newline depth ++ [']']
  | .obj [] => ['\x7b', '\x7d']
  | .obj ((k, v) :: ms) =>
    '\x7b' :: newline (depth + 1) ++ writeContent k ++ [':', ' '] ++ layOut (depth + 1) v ++
      layOutMembers (depth + 1) ms ++ newline depth ++ ['\x7d']

/-- The further items of an array. -/
def layOutItems (depth : Nat) : List Json → List Char
  | [] => []
  | v :: vs => ',' :: newline depth ++ layOut depth v ++ layOutItems depth vs

/-- The further members of an object. -/
def layOutMembers (depth : Nat) : List (Content × Json) → List Char
  | [] => []
  | (k, v) :: ms =>
    ',' :: newline depth ++ writeContent k ++ [':', ' '] ++ layOut depth v ++
      layOutMembers depth ms

end

/-- The document of a value, without a line break at the end. -/
def pretty (value : Json) : String := String.ofList (layOut 0 value)

end CliParity.Json
