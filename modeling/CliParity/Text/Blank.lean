import CliParity.Text.CodeRange

/-!
# White space

`isBlank` is the Unicode property White_Space. `trim` removes it from both ends of a text.
-/

set_option autoImplicit false

namespace CliParity.Text

/-- The code points of White_Space. -/
def blankRanges : List (Nat × Nat) :=
  [(0x9, 0xD), (0x20, 0x20), (0x85, 0x85), (0xA0, 0xA0), (0x1680, 0x1680), (0x2000, 0x200A),
   (0x2028, 0x2029), (0x202F, 0x202F), (0x205F, 0x205F), (0x3000, 0x3000)]

/-- The white space characters. -/
def isBlank (c : Char) : Bool := inRanges blankRanges c

/-- Drops the white space in front. -/
def trimStart (s : List Char) : List Char := s.dropWhile isBlank

/-- Drops the white space at the end. -/
def trimEnd (s : List Char) : List Char := (s.reverse.dropWhile isBlank).reverse

/-- Drops the white space at both ends. -/
def trim (s : List Char) : List Char := trimEnd (trimStart s)

/-- Whether the last character is white space. -/
def endsInBlank (s : List Char) : Bool := s.getLast?.any isBlank

end CliParity.Text
