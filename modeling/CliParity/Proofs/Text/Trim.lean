import CliParity.Text.Blank
import Mathlib.Data.List.DropRight

/-!
# Trimming

What is trimmed has no white space at either end (`trimmed_trim`), a text without any is its own
trim (`trim_eq_self_iff`), and nothing is left of a text exactly if it is all white space
(`trim_eq_nil_iff`). White space behind a text is lost in a trim at the end (`trimEnd_append`).
-/

set_option autoImplicit false

namespace CliParity.Text

/-- No white space at either end. -/
structure Trimmed (s : List Char) : Prop where
  head : ∀ c ∈ s.head?, isBlank c = false
  last : ∀ c ∈ s.getLast?, isBlank c = false

variable {s w : List Char}

theorem trimEnd_eq (s : List Char) : trimEnd s = s.rdropWhile isBlank := rfl

theorem trimEnd_of_last (h : ∀ c ∈ s.getLast?, isBlank c = false) : trimEnd s = s := by
  rw [trimEnd_eq, List.rdropWhile_eq_self_iff]
  intro hne
  simpa using h _ (List.getLast?_eq_some_getLast hne)

/-- White space behind is trimmed off. -/
theorem trimEnd_append (s : List Char) (h : w.all isBlank) : trimEnd (s ++ w) = trimEnd s := by
  rw [trimEnd, trimEnd, List.reverse_append, List.dropWhile_append_of_pos]
  intro c hc
  exact List.all_eq_true.1 h c (List.mem_reverse.1 hc)

theorem isBlank_head?_trimStart (s : List Char) : ∀ c ∈ (trimStart s).head?, isBlank c = false := by
  intro c hc
  have hhead := List.head?_dropWhile_not isBlank s
  rw [← trimStart, Option.mem_def.1 hc] at hhead
  simpa using hhead

theorem trimmed_trim (s : List Char) : Trimmed (trim s) := by
  rw [trim, trimEnd_eq]
  constructor
  · intro c hc
    obtain ⟨rest, hrest⟩ := List.head?_eq_some_iff.1 hc
    obtain ⟨t, ht⟩ := List.rdropWhile_prefix isBlank (trimStart s)
    rw [hrest] at ht
    exact isBlank_head?_trimStart s c (by rw [← ht]; rfl)
  · intro c hc
    obtain ⟨hne, rfl⟩ := List.mem_getLast?_eq_getLast hc
    simpa using List.rdropWhile_last_not isBlank (trimStart s) hne

theorem trim_of_trimmed (h : Trimmed s) : trim s = s := by
  have hstart : trimStart s = s := by
    rw [trimStart, List.dropWhile_eq_self_iff]
    intro hpos
    simpa using h.head s[0] (List.head?_eq_getElem? ▸ List.getElem?_eq_getElem hpos)
  rw [trim, hstart, trimEnd_of_last h.last]

theorem trim_eq_self_iff : trim s = s ↔ Trimmed s :=
  ⟨fun h => h ▸ trimmed_trim s, trim_of_trimmed⟩

theorem trim_eq_nil_iff : trim s = [] ↔ s.all isBlank := by
  rw [trim, trimEnd_eq, List.rdropWhile_eq_nil_iff, List.all_eq_true, trimStart]
  constructor
  · intro h
    rw [← List.dropWhile_eq_nil_iff]
    -- what is left would start with a character that is no white space
    cases hs : s.dropWhile isBlank with
    | nil => rfl
    | cons c t =>
      have hc : isBlank c = false := isBlank_head?_trimStart s c (by rw [trimStart, hs]; rfl)
      rw [h c (by rw [hs]; exact List.mem_cons_self)] at hc
      cases hc
  · intro h c hc
    exact h c ((List.dropWhile_sublist isBlank).subset hc)

end CliParity.Text
