import CliParity.Proofs.Text.Replacement

/-!
# The pieces between the occurrences of a text

`CutInto old s ps` says where a replacement cuts a text, without the search: `s` is the pieces `ps`
with `old` between them, behind each piece but the last stands the first `old` of what is left, and
the last has none. A text is cut into pieces in this way (`exists_cutInto`), and only in one
(`CutInto.unique`). A replacement writes its new text between them (`CutInto.replaceAll_eq`).
-/

set_option autoImplicit false

namespace CliParity.Text

/-- The pieces of `s` at the occurrences of `old`, from left to right and without overlap. -/
structure CutInto (old s : List Char) (ps : List (List Char)) : Prop where
  text : s = old.intercalate ps
  first : ∀ (k : Nat) (hk : k + 1 < ps.length),
    FirstAt old (old.intercalate (ps.drop k)) ps[k] (old.intercalate (ps.drop (k + 1)))
  last : ∃ p ∈ ps.getLast?, ¬ old <:+: p

variable {old new s p after : List Char} {ps qs : List (List Char)}

theorem cutInto_singleton_iff : CutInto old s [p] ↔ p = s ∧ ¬ old <:+: s := by
  constructor
  · rintro ⟨rfl, -, q, hq, habsent⟩
    obtain rfl : p = q := Option.some.inj hq
    rw [List.intercalate_singleton]
    exact ⟨rfl, habsent⟩
  · rintro ⟨rfl, habsent⟩
    refine ⟨(List.intercalate_singleton ..).symm, fun k hk => ?_, p, rfl, habsent⟩
    rw [List.length_singleton] at hk
    omega

/-- Behind the first piece the rest is cut in its turn. -/
theorem cutInto_cons_iff (hps : ps ≠ []) :
    CutInto old s (p :: ps) ↔ ∃ after, FirstAt old s p after ∧ CutInto old after ps := by
  have hlast : (p :: ps).getLast? = ps.getLast? := List.getLast?_cons_of_ne_nil hps
  have hpos := List.length_pos_iff.2 hps
  constructor
  · intro h
    have hfirst := h.first 0 (by simpa using hpos)
    refine ⟨old.intercalate ps, h.text ▸ hfirst, rfl, fun k hk => ?_, hlast ▸ h.last⟩
    exact h.first (k + 1) (by simpa using hk)
  · rintro ⟨after, hfirst, hrest⟩
    have htext : s = old.intercalate (p :: ps) := by
      rw [List.intercalate_cons_of_ne_nil hps, ← hrest.text]
      exact hfirst.text
    refine ⟨htext, fun k hk => ?_, hlast ▸ hrest.last⟩
    cases k with
    | zero =>
      have hfirst' := htext ▸ hfirst
      rwa [hrest.text] at hfirst'
    | succ k => exact hrest.first k (by simpa using hk)

theorem CutInto.ne_nil (h : CutInto old s ps) : ps ≠ [] := by
  rintro rfl
  obtain ⟨p, hp, -⟩ := h.last
  cases hp

/-- A text is in one piece if the other does not occur in it, and else in more. -/
theorem CutInto.two_le_length_iff (h : CutInto old s ps) : 2 ≤ ps.length ↔ old <:+: s := by
  obtain ⟨p, ps, rfl⟩ := List.exists_cons_of_ne_nil h.ne_nil
  by_cases hps : ps = []
  · subst hps
    exact iff_of_false (by simp) (cutInto_singleton_iff.1 h).2
  · obtain ⟨after, hfirst, -⟩ := (cutInto_cons_iff hps).1 h
    have hpos := List.length_pos_iff.2 hps
    have hlength : 2 ≤ (p :: ps).length := by
      rw [List.length_cons]
      omega
    exact iff_of_true hlength ⟨p, after, hfirst.text.symm⟩

theorem exists_cutInto (ho : old ≠ []) (s : List Char) : ∃ ps, CutInto old s ps := by
  induction s using replace_induction ho with
  | none s habsent => exact ⟨[s], cutInto_singleton_iff.2 ⟨rfl, habsent⟩⟩
  | some before after _ hc ih =>
    obtain ⟨ps, hps⟩ := ih
    exact ⟨before :: ps,
      (cutInto_cons_iff hps.ne_nil).2 ⟨after, cutFirst?_eq_some_iff_firstAt.1 hc, hps⟩⟩

/-- A text is cut in one way. -/
theorem CutInto.unique (h : CutInto old s ps) (h' : CutInto old s qs) : ps = qs := by
  -- on the pieces of the one; the other has as many, since `old` occurs in `s` or does not
  induction ps generalizing s qs with
  | nil => exact absurd rfl h.ne_nil
  | cons p ps ih =>
    obtain ⟨q, qs, rfl⟩ := List.exists_cons_of_ne_nil h'.ne_nil
    have hlength : ps = [] ↔ qs = [] := by
      have := h.two_le_length_iff.trans h'.two_le_length_iff.symm
      simp only [List.length_cons, ← List.length_eq_zero_iff] at this ⊢
      omega
    by_cases hps : ps = []
    · obtain rfl := hlength.1 hps
      subst hps
      rw [(cutInto_singleton_iff.1 h).1, (cutInto_singleton_iff.1 h').1]
    · obtain ⟨after, hfirst, hrest⟩ := (cutInto_cons_iff hps).1 h
      obtain ⟨after', hfirst', hrest'⟩ := (cutInto_cons_iff (mt hlength.2 hps)).1 h'
      obtain ⟨rfl, rfl⟩ := hfirst.unique hfirst'
      rw [ih hrest hrest']

/-- The new text is written between the pieces. -/
theorem CutInto.replaceAll_eq (ho : old ≠ []) (h : CutInto old s ps) (new : List Char) :
    replaceAll old new s = new.intercalate ps := by
  induction ps generalizing s with
  | nil => exact absurd rfl h.ne_nil
  | cons p ps ih =>
    by_cases hps : ps = []
    · subst hps
      obtain ⟨rfl, habsent⟩ := cutInto_singleton_iff.1 h
      rw [replaceAll_of_absent habsent, List.intercalate_singleton]
    · obtain ⟨after, hfirst, hrest⟩ := (cutInto_cons_iff hps).1 h
      rw [replaceAll_of_cutFirst? ho (cutFirst?_eq_some_iff_firstAt.2 hfirst), ih hrest,
        List.intercalate_cons_of_ne_nil hps]

/-- The empty text stands in front of each character and at the end. -/
theorem replaceAll_nil_eq (new s : List Char) :
    replaceAll [] new s = s.flatMap (fun c => new ++ [c]) ++ new := by
  change s.foldr (fun c r => new ++ c :: r) new = _
  induction s with
  | nil => rfl
  | cons c s ih => simp [ih]

end CliParity.Text
