import CliParity.Preferences.Layout
import CliParity.Proofs.OrderedMap
import CliParity.Proofs.Registry.Document

/-!
# The lengths in a layout

What a layout holds was read in the struct (`Text.mem_allMatches`), and an array length that was
read fits a machine word (`Field.fitsWord_of_read?`). So all lengths of a layout do
(`fitsWord_layout`).
-/

set_option autoImplicit false

namespace CliParity

open Text

/-- What a scan collects was read somewhere. -/
theorem Text.mem_allMatches {α : Type} {r : Recogniser α} {s : List Char} {a : α}
    (h : a ∈ allMatches r s) : ∃ u rest, r.read u = some (a, rest) := by
  induction s using allMatches.induct r with
  | case1 => simp [allMatches] at h
  | case2 c t b rest hr ih =>
    rw [allMatches] at h
    split at h
    · rename_i b' rest' hr'
      obtain ⟨rfl, rfl⟩ : b = b' ∧ rest = rest' := by simpa using hr.symm.trans hr'
      rcases List.mem_cons.1 h with rfl | h
      · exact ⟨_, _, hr⟩
      · exact ih h
    · rename_i hr'
      exact absurd (hr.symm.trans hr') (by simp)
  | case3 c t hr ih =>
    rw [allMatches] at h
    split at h
    · rename_i b rest hr'
      exact absurd (hr.symm.trans hr') (by simp)
    · exact ih h

theorem Text.wordValue?_lt {digits : List Char} {n : Nat} (h : wordValue? digits = some n) :
    n < wordLimit := by
  rw [wordValue?] at h
  split at h
  · rename_i hd
    simp only [Bool.and_eq_true, decide_eq_true_eq] at hd
    obtain rfl := Option.some.inj h
    exact hd.2
  · cases h

theorem Field.fitsWord_of_read? {s rest : List Char} {name : String} {f : Field}
    (h : Field.read? s = some ((name, f), rest)) : f.FitsWord := by
  simp only [Field.read?, Option.bind_eq_bind, Option.bind_eq_some_iff, Prod.exists] at h
  obtain ⟨type, s₁, -, bs, s₂, -, word, s₃, -, h⟩ := h
  split at h
  · simp only [Option.pure_def, Option.some.injEq, Prod.mk.injEq] at h
    obtain ⟨⟨-, rfl⟩, -⟩ := h
    exact fun n hn => wordValue?_lt hn
  · simp only [Option.pure_def, Option.some.injEq, Prod.mk.injEq] at h
    obtain ⟨⟨-, rfl⟩, -⟩ := h
    simp [Field.FitsWord]

theorem fitsWord_layout (structName header : String) :
    ∀ e ∈ (layout structName header).entries, e.2.FitsWord := by
  intro e he
  rw [layout] at he
  split at he
  · obtain ⟨u, rest, hr⟩ := mem_allMatches (OrderedMap.mem_of_mem_ofList he)
    exact Field.fitsWord_of_read? hr
  · cases he

end CliParity
