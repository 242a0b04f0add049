/-!
# Snippets of several lines
-/

set_option autoImplicit false

namespace CliParity.Snippet

/-- The text of some lines, with a line feed between each two. -/
def ofLines (lines : List String) : List Char :=
  ['\n'].intercalate (lines.map String.toList)

end CliParity.Snippet
