import CliParity.Text.Blank

/-!
# Recognising shapes in text

A shape is read off the front of a text by a function that gives the value of the match and the
rest. `firstMatch?` looks for the leftmost match. A `Recogniser` is such a function whose matches
take at least one character, so that a scan of a text ends: `allMatches` collects its matches from
left to right, each search going on where the match before ended, and `replaceMatches` writes other
text in their place.

The shapes of this library are determinate: a run of a character class is always followed by a
character outside the class, so reading runs greedily loses no match.
-/

set_option autoImplicit false

namespace CliParity.Text

/-! ## Parts of a shape -/

/-- The rest of `s` after the literal `p`. -/
def after? (p s : List Char) : Option (List Char) :=
  if p.isPrefixOf s then some (s.drop p.length) else none

/-- The rest of `s` after the white space in front, which may be none at all. -/
def skipBlanks (s : List Char) : List Char := s.dropWhile isBlank

/-- The longest run of the class in front of `s`, which must not be empty, and the rest. -/
def run? (class_ : Char → Bool) (s : List Char) : Option (List Char × List Char) :=
  if (s.takeWhile class_).isEmpty then none else some (s.takeWhile class_, s.dropWhile class_)

/-- The rest of `s` after one `c`, if `s` starts with it, and else all of `s`. -/
def skipOptional (c : Char) : List Char → List Char
  | [] => []
  | d :: s => if d = c then s else d :: s

theorem length_of_after? {p s rest : List Char} (h : after? p s = some rest) :
    s.length = p.length + rest.length := by
  unfold after? at h
  split at h
  · rename_i hp
    obtain ⟨t, rfl⟩ := List.isPrefixOf_iff_prefix.1 hp
    simp at h
    simp [h]
  · simp at h

theorem length_skipOptional_le (c : Char) (s : List Char) :
    (skipOptional c s).length ≤ s.length := by
  cases s with
  | nil => simp [skipOptional]
  | cons d s => rw [skipOptional]; split <;> simp

theorem length_of_run? {class_ : Char → Bool} {s taken rest : List Char}
    (h : run? class_ s = some (taken, rest)) : rest.length < s.length := by
  unfold run? at h
  split at h
  · simp at h
  · rename_i hne
    obtain ⟨rfl, rfl⟩ := Prod.mk.injEq .. ▸ Option.some.injEq .. ▸ h
    have hs := congrArg List.length (List.takeWhile_append_dropWhile (p := class_) (l := s))
    have hpos : 0 < (s.takeWhile class_).length := by
      cases hs' : s.takeWhile class_ with
      | nil => simp [hs'] at hne
      | cons => simp
    simp only [List.length_append] at hs
    omega

/-! ## Matches -/

variable {α : Type}

/-- Reads a match off the front of a text, and takes something off. -/
structure Recogniser (α : Type) where
  /-- The value of the match in front of the text, and the rest. -/
  read : List Char → Option (α × List Char)
  /-- A match is not empty. -/
  shorter : ∀ {s : List Char} {a : α} {rest : List Char},
    read s = some (a, rest) → rest.length < s.length

/-- The value of the leftmost match of a shape that is not empty. -/
def firstMatch? (read : List Char → Option (α × List Char)) : List Char → Option α
  | [] => none
  | c :: s =>
    match read (c :: s) with
    | some (a, _) => some a
    | none => firstMatch? read s

/-- The values of the matches from left to right, without overlap. -/
def allMatches (r : Recogniser α) (s : List Char) : List α :=
  match s with
  | [] => []
  | c :: t =>
    match _h : r.read (c :: t) with
    | some (a, rest) => a :: allMatches r rest
    | none => allMatches r t
termination_by s.length
decreasing_by
  · exact r.shorter _h
  · simp

/-- The text with every match, from left to right, replaced by `write` of its value. -/
def replaceMatches (r : Recogniser α) (write : α → List Char) (s : List Char) : List Char :=
  match s with
  | [] => []
  | c :: t =>
    match _h : r.read (c :: t) with
    | some (a, rest) => write a ++ replaceMatches r write rest
    | none => c :: replaceMatches r write t
termination_by s.length
decreasing_by
  · exact r.shorter _h
  · simp

end CliParity.Text
