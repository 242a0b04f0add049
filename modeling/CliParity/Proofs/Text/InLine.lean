import CliParity.Proofs.Text.Lines
import CliParity.Proofs.Text.Occurrence

/-!
# Texts in lines

A text without a line feed occurs in another if it occurs in a line (`infix_iff_lines`). Behind a
line feed it begins a line (`exists_line_of_newline_cons_infix`), and in front of one it ends a line
that is not the last (`concat_newline_infix_iff`). A text is cut between any two of its lines
(`exists_of_lines_eq_append`).
-/

set_option autoImplicit false

namespace CliParity.Text

variable {p s l : List Char} {front back ls : List (List Char)}

/-! ## Cutting between lines -/

theorem intercalate_lines (s : List Char) : ['\n'].intercalate (lines s) = s :=
  List.intercalate_splitOn '\n'

theorem intercalate_append (hf : front ≠ []) (hb : back ≠ []) :
    ['\n'].intercalate (front ++ back) =
      ['\n'].intercalate front ++ '\n' :: ['\n'].intercalate back := by
  induction front with
  | nil => exact absurd rfl hf
  | cons l front ih =>
    by_cases hfront : front = []
    · simp [hfront, List.intercalate_cons_of_ne_nil hb]
    · rw [List.cons_append, List.intercalate_cons_of_ne_nil (by simp [hb]), ih hfront,
        List.intercalate_cons_of_ne_nil hfront, List.append_assoc _ _ ('\n' :: _)]

/-- A text is cut between any two of its lines. -/
theorem exists_of_lines_eq_append (h : lines s = front ++ back) (hf : front ≠ []) (hb : back ≠ []) :
    ∃ a b, s = a ++ '\n' :: b ∧ lines a = front ∧ lines b = back := by
  have hn : ∀ l ∈ front ++ back, '\n' ∉ l := fun l hl => not_mem_of_mem_splitOn (h ▸ hl)
  refine ⟨['\n'].intercalate front, ['\n'].intercalate back, ?_, ?_, ?_⟩
  · rw [← intercalate_append hf hb, ← h, intercalate_lines]
  · exact List.splitOn_intercalate '\n' (fun l hl => hn l (List.mem_append_left back hl)) hf
  · exact List.splitOn_intercalate '\n' (fun l hl => hn l (List.mem_append_right front hl)) hb

theorem eq_of_lines_eq_singleton (h : lines s = [l]) : s = l := by
  rw [← intercalate_lines s, h, List.intercalate_singleton]

theorem prefix_of_lines_eq_cons (h : lines s = l :: ls) : l <+: s := by
  by_cases hls : ls = []
  · subst hls
    rw [eq_of_lines_eq_singleton h]
  · have hcut : lines s = [l] ++ ls := h
    obtain ⟨a, b, rfl, ha, -⟩ := exists_of_lines_eq_append hcut (by simp) hls
    rw [← eq_of_lines_eq_singleton ha]
    exact List.prefix_append a _

theorem suffix_of_lines_eq_concat (h : lines s = ls ++ [l]) : l <:+ s := by
  by_cases hls : ls = []
  · subst hls
    rw [eq_of_lines_eq_singleton h]
  · obtain ⟨a, b, rfl, -, hb⟩ := exists_of_lines_eq_append h hls (by simp)
    rw [← eq_of_lines_eq_singleton hb]
    exact ⟨a ++ ['\n'], by simp⟩

/-- What stands behind a text goes on with the last line of it. -/
theorem exists_lines_append (a : List Char) :
    ∃ above l, ∀ b, lines (a ++ b) = above ++ (lines b).modifyHead (l ++ ·) := by
  induction a with
  | nil =>
    refine ⟨[], [], fun b => ?_⟩
    cases h : lines b <;> simp [h]
  | cons c a ih =>
    obtain ⟨above, l, h⟩ := ih
    by_cases hc : c = '\n'
    · exact ⟨[] :: above, l, fun b => by rw [hc, List.cons_append, lines_cons_newline, h]; rfl⟩
    cases above with
    | nil =>
      refine ⟨[], c :: l, fun b => ?_⟩
      rw [List.cons_append, lines_cons hc, h]
      cases lines b <;> simp
    | cons first above =>
      exact ⟨(c :: first) :: above, l, fun b => by rw [List.cons_append, lines_cons hc, h]; rfl⟩

/-! ## Occurrences -/

theorem infix_iff_lines (hp : '\n' ∉ p) : p <:+: s ↔ ∃ l ∈ lines s, p <:+: l := by
  generalize hls : lines s = ls
  induction ls generalizing s with
  | nil => exact absurd hls (lines_ne_nil s)
  | cons l ls ih =>
    by_cases h : ls = []
    · simp [h, eq_of_lines_eq_singleton (h ▸ hls)]
    · have hcut : lines s = [l] ++ ls := hls
      obtain ⟨a, b, rfl, ha, hb⟩ := exists_of_lines_eq_append hcut (by simp) h
      rw [infix_append_cons_iff hp, ih hb, eq_of_lines_eq_singleton ha]
      simp only [List.mem_cons, exists_eq_or_imp]

/-- Behind a line feed, a text begins a line. -/
theorem exists_line_of_newline_cons_infix (hp : '\n' ∉ p) (h : '\n' :: p <:+: s) :
    ∃ l ∈ lines s, p <+: l := by
  obtain ⟨x, y, rfl⟩ := h
  obtain ⟨first, rest, hy⟩ := List.exists_cons_of_ne_nil (lines_ne_nil y)
  rw [List.append_assoc, List.cons_append, lines_append, lines_append_of_not_mem hp, hy]
  exact ⟨p ++ first, by simp, List.prefix_append p first⟩

/-- In front of a line feed, a text ends a line. -/
theorem concat_newline_infix_iff (hp : '\n' ∉ p) :
    p ++ ['\n'] <:+: s ↔ ∃ l ∈ (lines s).dropLast, p <:+ l := by
  constructor
  · rintro ⟨x, y, rfl⟩
    obtain ⟨above, l, h⟩ := exists_lines_append x
    have hlines : lines (x ++ (p ++ ['\n']) ++ y) = above ++ [l ++ p] ++ lines y := by
      rw [← List.append_assoc, List.append_assoc _ ['\n'], List.singleton_append, lines_append, h,
        lines_of_not_mem hp, List.modifyHead_cons]
    rw [hlines, List.dropLast_append_of_ne_nil (lines_ne_nil y)]
    exact ⟨l ++ p, by simp, List.suffix_append l p⟩
  · rintro ⟨l, hl, x, rfl⟩
    obtain ⟨above, below, hsplit⟩ := List.append_of_mem hl
    have hlines : lines s = above ++ [x ++ p] ++ (below ++ [(lines s).getLast (lines_ne_nil s)]) :=
      calc lines s = (lines s).dropLast ++ [(lines s).getLast (lines_ne_nil s)] :=
            (List.dropLast_concat_getLast _).symm
        _ = above ++ [x ++ p] ++ (below ++ [(lines s).getLast (lines_ne_nil s)]) := by simp [hsplit]
    obtain ⟨a, b, rfl, ha, -⟩ := exists_of_lines_eq_append hlines (by simp) (by simp)
    obtain ⟨y, rfl⟩ := suffix_of_lines_eq_concat ha
    exact ⟨y ++ x, b, by simp⟩

end CliParity.Text
