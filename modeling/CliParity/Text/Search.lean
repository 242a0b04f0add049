/-!
# Searching and replacing text

Text is worked on as a list of characters. `cutFirst?` and `cutLast?` split a text at an occurrence
of a pattern, `pieces` at all of them from left to right, and `replaceAll` writes another text
between the pieces.

* `cutFirst?_eq_append`, `cutLast?_eq_append`: nothing is lost by a cut.
* `length_of_cutFirst?`: what follows a cut is shorter by the pattern, so `pieces` ends.
-/

set_option autoImplicit false

namespace CliParity.Text

/-! ## Cutting -/

/-- The text before and after the first occurrence of `p`. -/
def cutFirst? (p : List Char) : List Char → Option (List Char × List Char)
  | [] => if p.isEmpty then some ([], []) else none
  | c :: s =>
    if p.isPrefixOf (c :: s) then some ([], (c :: s).drop p.length)
    else (cutFirst? p s).map fun (before, after) => (c :: before, after)

/-- The text before and after the last occurrence of `p`; an empty `p` occurs last at the end. -/
def cutLast? (p : List Char) : List Char → Option (List Char × List Char)
  | [] => if p.isEmpty then some ([], []) else none
  | c :: s =>
    match cutLast? p s with
    | some (before, after) => some (c :: before, after)
    | none => if p.isPrefixOf (c :: s) then some ([], (c :: s).drop p.length) else none

/-- Whether `p` occurs in `s`; the empty text occurs everywhere. -/
def contains (s p : List Char) : Bool := (cutFirst? p s).isSome

theorem eq_append_of_isPrefixOf {p s : List Char} (h : p.isPrefixOf s = true) :
    s = p ++ s.drop p.length := by
  obtain ⟨t, rfl⟩ := List.isPrefixOf_iff_prefix.1 h
  simp

theorem cutFirst?_eq_append {p s before after : List Char}
    (h : cutFirst? p s = some (before, after)) : s = before ++ p ++ after := by
  induction s generalizing before with
  | nil => cases p <;> simp_all [cutFirst?]
  | cons c s ih =>
    rw [cutFirst?] at h
    split at h
    · rename_i hp
      obtain ⟨rfl, rfl⟩ := Prod.mk.injEq .. ▸ Option.some.injEq .. ▸ h
      simpa using eq_append_of_isPrefixOf hp
    · obtain ⟨⟨b, a⟩, hb, he⟩ := Option.map_eq_some_iff.1 h
      obtain ⟨rfl, rfl⟩ := Prod.mk.injEq .. ▸ he
      simp [ih hb]

theorem cutLast?_eq_append {p s before after : List Char}
    (h : cutLast? p s = some (before, after)) : s = before ++ p ++ after := by
  induction s generalizing before after with
  | nil => cases p <;> simp_all [cutLast?]
  | cons c s ih =>
    rw [cutLast?] at h
    split at h
    · rename_i b a hb
      obtain ⟨rfl, rfl⟩ := Prod.mk.injEq .. ▸ Option.some.injEq .. ▸ h
      simp [ih hb]
    · split at h
      · rename_i hp
        obtain ⟨rfl, rfl⟩ := Prod.mk.injEq .. ▸ Option.some.injEq .. ▸ h
        simpa using eq_append_of_isPrefixOf hp
      · simp at h

theorem length_of_cutFirst? {p s before after : List Char}
    (h : cutFirst? p s = some (before, after)) :
    s.length = before.length + p.length + after.length := by
  simp [cutFirst?_eq_append h, Nat.add_assoc]

/-! ## Replacing -/

/-- The stretches of `s` between the occurrences of `c :: p`, found from left to right without
overlap. -/
def pieces (c : Char) (p : List Char) (s : List Char) : List (List Char) :=
  match _h : cutFirst? (c :: p) s with
  | none => [s]
  | some (before, after) => before :: pieces c p after
termination_by s.length
decreasing_by
  have := length_of_cutFirst? _h
  simp only [List.length_cons] at this
  omega

/-- Writes `new` over every occurrence of `old`. An empty `old` is found before each character and
at the end. -/
def replaceAll (old new s : List Char) : List Char :=
  match old with
  | [] => s.foldr (fun c r => new ++ c :: r) new
  | c :: p => new.intercalate (pieces c p s)

/-- The lines of a text, split at line feeds only: a carriage return stays in its line. -/
def lines (s : List Char) : List (List Char) := s.splitOn '\n'

end CliParity.Text
