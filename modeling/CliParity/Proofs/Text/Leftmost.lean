import CliParity.Proofs.Text.Scan

/-!
# The leftmost text of a shape

A shape says how values are written: `shape a w` if `w` is a way to write `a`. `LeftmostAt` says
where in a text something is written in a shape such that nothing of the shape starts further in
front. If a reader reads a shape (`Reads`), the leftmost match is the value of the leftmost text of
the shape (`Reads.firstMatch?_eq_some_iff`), and there is one wherever the shape occurs
(`Reads.firstMatch?_isSome_iff`).
-/

set_option autoImplicit false

namespace CliParity.Text

variable {α : Type}

/-- A text of the shape occurs in `s`. -/
def Occurs (shape : α → List Char → Prop) (s : List Char) : Prop := ∃ a w, shape a w ∧ w <:+: s

/-- `a` is written in `s` between `before` and `after`, and nothing of the shape starts earlier. -/
structure LeftmostAt (shape : α → List Char → Prop) (s before w after : List Char) (a : α) :
    Prop where
  text : s = before ++ w ++ after
  written : shape a w
  first : ∀ b a' w' rest, shape a' w' → s = b ++ w' ++ rest → before.length ≤ b.length

/-- `a` is what the leftmost text of the shape says. -/
def Leftmost (shape : α → List Char → Prop) (s : List Char) (a : α) : Prop :=
  ∃ before w after, LeftmostAt shape s before w after a

/-- The reader reads the texts of the shape off the front of a text, and nothing else. -/
structure Reads (read : List Char → Option (α × List Char)) (shape : α → List Char → Prop) :
    Prop where
  read_iff : ∀ {s a rest}, read s = some (a, rest) ↔ ∃ w, shape a w ∧ s = w ++ rest
  ne_nil : ∀ {a w}, shape a w → w ≠ []

variable {read : List Char → Option (α × List Char)} {shape : α → List Char → Prop}
  {s : List Char} {a : α}

theorem Leftmost.occurs (h : Leftmost shape s a) : Occurs shape s := by
  obtain ⟨before, w, after, hw⟩ := h
  exact ⟨a, w, hw.written, before, after, hw.text.symm⟩

/-- What starts in front of `u` in a text goes on up to `u`. -/
theorem exists_append_of_length_lt {b t before u : List Char} (h : b ++ t = before ++ u)
    (hlt : b.length < before.length) : ∃ k, k ≠ [] ∧ before = b ++ k ∧ t = k ++ u := by
  obtain ⟨k, rfl⟩ : b <+: before :=
    List.prefix_of_prefix_length_le ⟨t, h⟩ (List.prefix_append before u) (Nat.le_of_lt hlt)
  refine ⟨k, ?_, rfl, List.append_cancel_left (h.trans (List.append_assoc b k u))⟩
  rintro rfl
  simp at hlt

namespace Reads

theorem leftmost_of_firstMatch? (hr : Reads read shape) (h : firstMatch? read s = some a) :
    Leftmost shape s a := by
  obtain ⟨before, t, rest, rfl, ht, hfront⟩ := exists_of_firstMatch? h
  obtain ⟨w, hw, rfl⟩ := hr.read_iff.1 ht
  refine ⟨before, w, rest, by simp, hw, fun b a' w' rest' hw' hs => Nat.le_of_not_lt fun hlt => ?_⟩
  -- what started earlier would have been read in front
  rw [List.append_assoc] at hs
  obtain ⟨k, hne, rfl, hk⟩ := exists_append_of_length_lt hs.symm hlt
  have hread := hfront k (List.suffix_append b k) hne
  rw [hr.read_iff.2 ⟨w', hw', hk.symm⟩] at hread
  cases hread

theorem firstMatch?_of_leftmost (hr : Reads read shape) (h : Leftmost shape s a) :
    firstMatch? read s = some a := by
  obtain ⟨before, w, after, rfl, hw, hfirst⟩ := h
  have hfront : ∀ t, t <:+ before → t ≠ [] → read (t ++ (w ++ after)) = none := by
    rintro t ⟨b, rfl⟩ hne
    refine Option.eq_none_iff_forall_not_mem.2 fun (a', rest) hread => ?_
    obtain ⟨w', hw', ht⟩ := hr.read_iff.1 hread
    have hle := hfirst b a' w' rest hw' (by simp only [List.append_assoc, ht])
    have := List.length_pos_iff.2 hne
    rw [List.length_append] at hle
    omega
  rw [List.append_assoc, firstMatch?_append_of_none hfront]
  exact firstMatch?_of_read (List.append_ne_nil_of_left_ne_nil (hr.ne_nil hw) after)
    (hr.read_iff.2 ⟨w, hw, rfl⟩)

/-- The leftmost match is what the leftmost text of the shape says. -/
theorem firstMatch?_eq_some_iff (hr : Reads read shape) :
    firstMatch? read s = some a ↔ Leftmost shape s a :=
  ⟨hr.leftmost_of_firstMatch?, hr.firstMatch?_of_leftmost⟩

/-- No text of the shape is missed. -/
theorem firstMatch?_isSome_iff (hr : Reads read shape) :
    (firstMatch? read s).isSome ↔ Occurs shape s := by
  rw [Text.firstMatch?_isSome_iff]
  constructor
  · rintro ⟨t, ht, -, hread⟩
    obtain ⟨⟨a, rest⟩, hread⟩ := Option.isSome_iff_exists.1 hread
    obtain ⟨w, hw, rfl⟩ := hr.read_iff.1 hread
    exact ⟨a, w, hw, (List.prefix_append w rest).isInfix.trans ht.isInfix⟩
  · rintro ⟨a, w, hw, before, after, rfl⟩
    rw [List.append_assoc]
    refine ⟨w ++ after, List.suffix_append before _,
      List.append_ne_nil_of_left_ne_nil (hr.ne_nil hw) after, ?_⟩
    rw [hr.read_iff.2 ⟨w, hw, rfl⟩]
    rfl

theorem firstMatch?_eq_none_iff (hr : Reads read shape) :
    firstMatch? read s = none ↔ ¬ Occurs shape s := by
  rw [← hr.firstMatch?_isSome_iff, Bool.not_eq_true, Option.isSome_eq_false_iff,
    Option.isNone_iff_eq_none]

/-- Where the shape occurs, a text of it is leftmost. -/
theorem exists_leftmost (hr : Reads read shape) (h : Occurs shape s) :
    ∃ a, Leftmost shape s a := by
  obtain ⟨a, ha⟩ := Option.isSome_iff_exists.1 (hr.firstMatch?_isSome_iff.2 h)
  exact ⟨a, hr.leftmost_of_firstMatch? ha⟩

end Reads

end CliParity.Text
