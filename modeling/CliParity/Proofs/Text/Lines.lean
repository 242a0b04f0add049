import CliParity.Text.Search
import Mathlib.Data.List.Basic

/-!
# The lines of a text

A text has one line more than line feeds (`length_lines`). Two texts around a line feed keep their
lines (`lines_append`), so what is joined by line feeds has the lines of its parts
(`lines_intercalate`): a part that holds a line feed takes several.
-/

set_option autoImplicit false

namespace CliParity.Text

variable {s a b : List Char} {ls : List (List Char)}

/-- What stands between two separators holds none. -/
theorem not_mem_of_mem_splitOn {c : Char} {part : List Char} (h : part ∈ s.splitOn c) :
    c ∉ part := by
  induction s generalizing part with
  | nil =>
    rw [List.splitOn_nil, List.mem_singleton] at h
    simp [h]
  | cons d s ih =>
    obtain ⟨first, rest, hs⟩ := List.exists_cons_of_ne_nil (List.splitOn_ne_nil c s)
    rw [List.splitOn_cons_eq_if_modifyHead, hs] at h
    rw [hs] at ih
    split at h
    · rcases List.mem_cons.1 h with rfl | h
      · exact List.not_mem_nil
      · exact ih h
    · rename_i hd
      rw [List.modifyHead_cons] at h
      rcases List.mem_cons.1 h with rfl | h
      · have hne : d ≠ c := by simpa using hd
        simpa [hne.symm] using ih List.mem_cons_self
      · exact ih (List.mem_cons_of_mem first h)

theorem lines_append (a b : List Char) : lines (a ++ '\n' :: b) = lines a ++ lines b :=
  List.splitOn_append_cons_self a b

theorem lines_of_not_mem (h : '\n' ∉ s) : lines s = [s] := List.splitOn_eq_singleton h

theorem lines_ne_nil (s : List Char) : lines s ≠ [] := List.splitOn_ne_nil _ _

theorem lines_cons_newline (s : List Char) : lines ('\n' :: s) = [] :: lines s :=
  lines_append [] s

theorem lines_cons {c : Char} (hc : c ≠ '\n') (s : List Char) :
    lines (c :: s) = (lines s).modifyHead (c :: ·) := by
  rw [lines, List.splitOn_cons_eq_if_modifyHead, if_neg (by simpa using hc), lines]

theorem lines_append_of_not_mem (h : '\n' ∉ a) (s : List Char) :
    lines (a ++ s) = (lines s).modifyHead (a ++ ·) := by
  induction a with
  | nil => cases hs : lines s <;> simp [hs]
  | cons c a ih =>
    obtain ⟨hc, ha⟩ : c ≠ '\n' ∧ '\n' ∉ a := by simpa [eq_comm] using h
    rw [List.cons_append, lines_cons hc, ih ha]
    cases lines s <;> rfl

theorem length_lines (s : List Char) : (lines s).length = s.count '\n' + 1 := by
  induction s with
  | nil => rfl
  | cons c s ih =>
    by_cases hc : c = '\n'
    · rw [hc, lines_cons_newline, List.length_cons, ih, List.count_cons_self]
    · rw [lines_cons hc, List.length_modifyHead, ih, List.count_cons_of_ne hc]

theorem flatMap_lines_of_not_mem (h : ∀ l ∈ ls, '\n' ∉ l) : ls.flatMap lines = ls := by
  induction ls with
  | nil => rfl
  | cons l ls ih =>
    rw [List.flatMap_cons, lines_of_not_mem (h l (by simp)), ih fun m hm => h m (by simp [hm])]
    rfl

theorem lines_intercalate (h : ls ≠ []) : lines (['\n'].intercalate ls) = ls.flatMap lines := by
  induction ls with
  | nil => exact absurd rfl h
  | cons l ls ih =>
    cases ls with
    | nil => simp
    | cons m ls =>
      rw [List.intercalate_cons_cons, List.append_assoc, List.singleton_append, lines_append,
        ih (by simp)]
      rfl

end CliParity.Text
