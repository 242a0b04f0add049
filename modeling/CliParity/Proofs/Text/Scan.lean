import CliParity.Text.Scan
import Mathlib.Data.List.TakeWhile

/-!
# Scans step by step

A literal is read exactly off the texts that begin with it (`after?_eq_some_iff`), and a run is read
alike in front of any text that could not go on with it (`run?_append`). The leftmost match may be
in front (`firstMatch?_of_read`), behind a text that no match starts in
(`firstMatch?_append_of_none`) or nowhere (`firstMatch?_of_none`). A scan either has a match in
front and goes on behind it, or passes over one character: `allMatches_of_read`,
`allMatches_of_none`, `replaceMatches_of_read`, `replaceMatches_of_none`. So it passes over a text
that no match starts in (`allMatches_append_of_none`), and it is cut where no match reaches across
(`allMatches_append`).
-/

set_option autoImplicit false

namespace CliParity.Text

/-! ## Parts of a shape -/

section
variable {p s t rest : List Char}

theorem after?_eq_some_iff : after? p s = some rest ↔ s = p ++ rest := by
  rw [after?]
  constructor
  · intro h
    split at h
    · rename_i hp
      obtain ⟨t, rfl⟩ := List.isPrefixOf_iff_prefix.1 hp
      simpa using h
    · cases h
  · rintro rfl
    simp

end

section
variable {p : Char → Bool} {s t rest r : List Char}

theorem takeWhile_append_of_head (h : ∀ c ∈ t.head?, p c = false) :
    (s ++ t).takeWhile p = s.takeWhile p := by
  induction s with
  | nil => cases t <;> simp_all
  | cons c s ih => cases hc : p c <;> simp [hc, ih]

theorem dropWhile_append_of_head (h : ∀ c ∈ t.head?, p c = false) :
    (s ++ t).dropWhile p = s.dropWhile p ++ t := by
  induction s with
  | nil => cases t <;> simp_all
  | cons c s ih => cases hc : p c <;> simp [hc, ih]

theorem run?_append_eq_map (hr : ∀ c ∈ rest.head?, p c = false) :
    run? p (s ++ rest) = (run? p s).map (Prod.map id (· ++ rest)) := by
  rw [run?, run?, takeWhile_append_of_head hr, dropWhile_append_of_head hr]
  split <;> rfl

theorem run?_append (h : run? p s = some (t, r)) (hr : ∀ c ∈ rest.head?, p c = false) :
    run? p (s ++ rest) = some (t, r ++ rest) := by
  rw [run?_append_eq_map hr, h]
  rfl

end

/-! ## Scans -/

section
variable {α : Type} {read : List Char → Option (α × List Char)} {s rest : List Char} {a : α}

theorem firstMatch?_of_read (hs : s ≠ []) (h : read s = some (a, rest)) :
    firstMatch? read s = some a := by
  cases s with
  | nil => exact absurd rfl hs
  | cons c s => rw [firstMatch?, h]

theorem firstMatch?_of_none (h : ∀ t, t <:+ s → read t = none) : firstMatch? read s = none := by
  induction s with
  | nil => rfl
  | cons c s ih =>
    rw [firstMatch?, h _ (List.suffix_refl _)]
    exact ih fun t ht => h t (ht.trans (List.suffix_cons c s))

/-- Where no match starts in front, the leftmost one is that of the rest. -/
theorem firstMatch?_append_of_none (h : ∀ t, t <:+ s → t ≠ [] → read (t ++ rest) = none) :
    firstMatch? read (s ++ rest) = firstMatch? read rest := by
  induction s with
  | nil => rfl
  | cons c s ih =>
    have hc : read (c :: (s ++ rest)) = none := h _ (List.suffix_refl _) (List.cons_ne_nil c s)
    rw [List.cons_append, firstMatch?, hc]
    exact ih fun t ht => h t (ht.trans (List.suffix_cons c s))

/-- The leftmost match is somewhere, and none starts in front. -/
theorem exists_of_firstMatch? (h : firstMatch? read s = some a) :
    ∃ before t rest, s = before ++ t ∧ read t = some (a, rest) ∧
      ∀ u, u <:+ before → u ≠ [] → read (u ++ t) = none := by
  induction s with
  | nil => cases h
  | cons c s ih =>
    rw [firstMatch?] at h
    split at h
    · rename_i b rest hr
      obtain rfl : b = a := Option.some.inj h
      refine ⟨[], c :: s, rest, rfl, hr, fun u hu hne => ?_⟩
      exact absurd (List.suffix_nil.1 hu) hne
    · rename_i hr
      obtain ⟨before, t, rest, rfl, ht, hfront⟩ := ih h
      refine ⟨c :: before, t, rest, rfl, ht, fun u hu hne => ?_⟩
      rcases List.suffix_cons_iff.1 hu with rfl | hu
      · exact hr
      · exact hfront u hu hne

theorem firstMatch?_isSome_iff :
    (firstMatch? read s).isSome ↔ ∃ t, t <:+ s ∧ t ≠ [] ∧ (read t).isSome := by
  induction s with
  | nil => simp [firstMatch?]
  | cons c s ih =>
    rw [firstMatch?]
    cases hr : read (c :: s) with
    | some m => simpa using ⟨c :: s, List.suffix_refl _, List.cons_ne_nil c s, by simp [hr]⟩
    | none =>
      rw [ih]
      constructor
      · rintro ⟨t, ht, hne, hm⟩
        exact ⟨t, ht.trans (List.suffix_cons c s), hne, hm⟩
      · rintro ⟨t, ht, hne, hm⟩
        rcases List.suffix_cons_iff.1 ht with rfl | ht
        · simp [hr] at hm
        · exact ⟨t, ht, hne, hm⟩

end

section
variable {α : Type} {r : Recogniser α} {write : α → List Char} {c : Char} {s rest : List Char}
  {a : α}

theorem allMatches_of_read (h : r.read (c :: s) = some (a, rest)) :
    allMatches r (c :: s) = a :: allMatches r rest := by
  rw [allMatches]
  split
  · rename_i b t hr
    cases h.symm.trans hr
    rfl
  · rename_i hr
    cases h.symm.trans hr

theorem allMatches_of_none (h : r.read (c :: s) = none) :
    allMatches r (c :: s) = allMatches r s := by
  rw [allMatches]
  split
  · rename_i hr
    cases h.symm.trans hr
  · rfl

/-- Where no match starts in front, the scan passes over to the rest. -/
theorem allMatches_append_of_none (h : ∀ t, t <:+ s → t ≠ [] → r.read (t ++ rest) = none) :
    allMatches r (s ++ rest) = allMatches r rest := by
  induction s with
  | nil => rfl
  | cons c s ih =>
    have hc : r.read (c :: (s ++ rest)) = none := h _ (List.suffix_refl _) (List.cons_ne_nil c s)
    rw [List.cons_append, allMatches_of_none hc]
    exact ih fun t ht => h t (ht.trans (List.suffix_cons c s))

/-- Where a match starts in front, the first of them is of the scan. -/
theorem exists_mem_allMatches (h : ∃ t, t <:+ s ∧ t ≠ [] ∧ (r.read (t ++ rest)).isSome) :
    ∃ t a after, t <:+ s ∧ r.read (t ++ rest) = some (a, after) ∧ a ∈ allMatches r (s ++ rest) := by
  induction s with
  | nil =>
    obtain ⟨t, ht, hne, -⟩ := h
    exact absurd (List.suffix_nil.1 ht) hne
  | cons c s ih =>
    cases hr : r.read (c :: (s ++ rest)) with
    | some m =>
      refine ⟨c :: s, m.1, m.2, List.suffix_refl _, hr, ?_⟩
      rw [List.cons_append, allMatches_of_read hr]
      exact List.mem_cons_self
    | none =>
      obtain ⟨t, ht, hne, hread⟩ := h
      have hs : t <:+ s := by
        rcases List.suffix_cons_iff.1 ht with rfl | hs
        · rw [List.cons_append, hr] at hread
          cases hread
        · exact hs
      obtain ⟨u, a, after, hu, hread', hmem⟩ := ih ⟨t, hs, hne, hread⟩
      rw [List.cons_append, allMatches_of_none hr]
      exact ⟨u, a, after, hu.trans (List.suffix_cons c s), hread', hmem⟩

/-- Where all is read alike in front of `rest`, its matches come after those in front. -/
theorem allMatches_append (h : ∀ s, r.read (s ++ rest) = (r.read s).map (Prod.map id (· ++ rest)))
    (s : List Char) : allMatches r (s ++ rest) = allMatches r s ++ allMatches r rest := by
  induction s using allMatches.induct r with
  | case1 => simp [allMatches]
  | case2 c t a after hr ih =>
    have hread : r.read (c :: (t ++ rest)) = some (a, after ++ rest) := by
      rw [← List.cons_append, h, hr]
      rfl
    rw [List.cons_append, allMatches_of_read hread, ih, allMatches_of_read hr, List.cons_append]
  | case3 c t hr ih =>
    have hread : r.read (c :: (t ++ rest)) = none := by
      rw [← List.cons_append, h, hr]
      rfl
    rw [List.cons_append, allMatches_of_none hread, ih, allMatches_of_none hr]

theorem replaceMatches_of_read (h : r.read (c :: s) = some (a, rest)) :
    replaceMatches r write (c :: s) = write a ++ replaceMatches r write rest := by
  rw [replaceMatches]
  split
  · rename_i b t hr
    cases h.symm.trans hr
    rfl
  · rename_i hr
    cases h.symm.trans hr

theorem replaceMatches_of_none (h : r.read (c :: s) = none) :
    replaceMatches r write (c :: s) = c :: replaceMatches r write s := by
  rw [replaceMatches]
  split
  · rename_i hr
    cases h.symm.trans hr
  · rfl

end

end CliParity.Text
