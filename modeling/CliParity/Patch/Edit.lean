import CliParity.Text.Search

/-!
# Text edits with a precondition

An `Edit` changes a text wherever its precondition holds, and has no result where it does not. All
but the plain replacement have a marker: a text whose presence says that the edit is in place.
-/

set_option autoImplicit false

namespace CliParity

open Text

/-- A change to a text. -/
inductive Edit
  /-- Writes `new` over every occurrence of `old`, of which there has to be one. -/
  | replace (old new : List Char)
  /-- The same in a text without the marker. -/
  | replaceUnless (marker old new : List Char)
  /-- Writes `new` over every occurrence of `old` in front of the first `boundary`, in a text
  without the marker. The boundary has to stand past the start of the text; `old` need not
  occur. -/
  | replaceBefore (marker boundary old new : List Char)
  /-- Writes `text` right after every occurrence of `anchor`, in a text without the marker. The
  anchor need not occur. -/
  | insertAfter (marker anchor text : List Char)
  /-- Writes `text` at the end of the line on which the last `anchor` starts, in front of the line
  feed, in a text without the marker. The anchor has to stand past the start of the text, and a line
  feed has to follow its start. -/
  | appendToLastLine (marker anchor text : List Char)
  deriving DecidableEq, Repr

namespace Edit

/-- The text with `old` replaced by `new`, if `old` occurs. -/
def replaceIn? (old new content : List Char) : Option (List Char) :=
  if contains content old then some (replaceAll old new content) else none

/-- The text with `old` replaced by `new` in front of the first `boundary`. -/
def replaceBefore? (boundary old new content : List Char) : Option (List Char) :=
  match cutFirst? boundary content with
  | some (head, tail) =>
    if head.isEmpty then none else some (replaceAll old new head ++ boundary ++ tail)
  | none => none

/-- The text with `text` in front of the first line feed from the start of the last `anchor` on. -/
def appendToLastLine? (anchor text content : List Char) : Option (List Char) :=
  match cutLast? anchor content with
  | some (head, tail) =>
    if head.isEmpty then none
    else
      (cutFirst? ['\n'] (anchor ++ tail)).map fun (line, rest) =>
        head ++ line ++ text ++ '\n' :: rest
  | none => none

/-- The text with the edit done, if the precondition holds. -/
def result? : Edit → List Char → Option (List Char)
  | replace old new, content => replaceIn? old new content
  | replaceUnless marker old new, content =>
    if contains content marker then none else replaceIn? old new content
  | replaceBefore marker boundary old new, content =>
    if contains content marker then none else replaceBefore? boundary old new content
  | insertAfter marker anchor text, content =>
    if contains content marker then none
    else some (replaceAll anchor (anchor ++ text) content)
  | appendToLastLine marker anchor text, content =>
    if contains content marker then none else appendToLastLine? anchor text content

end Edit

end CliParity
