import CliParity.Proofs.Patch.SwitchingOff
import CliParity.Proofs.Text.Pieces

/-!
# Edits that write over all occurrences

A plain replacement and an insertion behind an anchor change every occurrence of a text, found from
left to right without overlap. `replacing_edits` says what they do by the pieces between these
occurrences (`CutInto`), for all parameters: also for texts that overlap themselves, and for the
empty text. An insertion is the replacement of the anchor by the anchor with the new text behind it
(`insertAfter_eq`), and leaves a text without the anchor as it is.
-/

set_option autoImplicit false

namespace CliParity.Edit

open Text

variable {marker anchor old new text s : List Char}

theorem replace_eq_none_iff : (replace old new).result? s = none ↔ ¬ old <:+: s := by
  rw [result?, replaceIn?, ite_eq_right_iff, contains_iff]
  simp

theorem replace_eq_replaceAll (h : old <:+: s) :
    (replace old new).result? s = some (replaceAll old new s) :=
  replaceIn?_eq_some_iff.2 ⟨h, rfl⟩

/-- An insertion writes over its anchor. -/
theorem insertAfter_eq (hm : ¬ marker <:+: s) :
    (insertAfter marker anchor text).result? s =
      some (replaceAll anchor (anchor ++ text) s) := by
  rw [result?, unless_of_absent hm]

/-- **Edits of all occurrences go from left to right.** A replacement is done if the old text
occurs. It cuts the text into pieces, each of which ends at the first old text of what is left,
which can be done in one way, and writes the new text between them; an empty text is found in front
of each character and at the end. An insertion does the same with its anchor, and nothing where it
has none. -/
theorem replacing_edits (marker old new text s : List Char) :
    ((replace old new).result? s = none ↔ ¬ old <:+: s) ∧
    (old ≠ [] → old <:+: s → ∃ ps, 2 ≤ ps.length ∧ CutInto old s ps ∧
      (∀ qs, CutInto old s qs → qs = ps) ∧
      (replace old new).result? s = some (new.intercalate ps)) ∧
    (replace [] new).result? s = some (s.flatMap (fun c => new ++ [c]) ++ new) ∧
    (¬ marker <:+: s →
      (old <:+: s → (insertAfter marker old text).result? s =
        (replace old (old ++ text)).result? s) ∧
      (¬ old <:+: s → (insertAfter marker old text).result? s = some s)) := by
  refine ⟨replace_eq_none_iff, fun ho hs => ?_, ?_, fun hm => ⟨fun hs => ?_, fun hs => ?_⟩⟩
  · obtain ⟨ps, hps⟩ := exists_cutInto ho s
    refine ⟨ps, hps.two_le_length_iff.2 hs, hps, fun qs hqs => hqs.unique hps, ?_⟩
    rw [replace_eq_replaceAll hs, hps.replaceAll_eq ho new]
  · rw [replace_eq_replaceAll List.nil_infix, replaceAll_nil_eq]
  · rw [insertAfter_eq hm, replace_eq_replaceAll hs]
  · rw [insertAfter_eq hm, replaceAll_of_absent hs]

/-- A text that overlaps itself: the first occurrence counts, and the search goes on behind it. -/
theorem overlapping_replaced :
    "aba".toList ≠ [] ∧ "aba".toList <:+: "xababab".toList ∧ ¬ "#".toList <:+: "xababab".toList ∧
      CutInto "aba".toList "xababab".toList ["x".toList, "bab".toList] ∧
      (replace "aba".toList "c".toList).result? "xababab".toList = some "xcbab".toList ∧
      (insertAfter "#".toList "aba".toList "!".toList).result? "xababab".toList =
        (replace "aba".toList "aba!".toList).result? "xababab".toList := by
  have hs : "aba".toList <:+: "xababab".toList := ⟨"x".toList, "bab".toList, by decide⟩
  have hm : ¬ "#".toList <:+: "xababab".toList := by
    rw [← occursIn_iff]
    decide
  obtain ⟨-, hreplace, -, hinsert⟩ :=
    replacing_edits "#".toList "aba".toList "c".toList "!".toList "xababab".toList
  obtain ⟨ps, -, -, hunique, hresult⟩ := hreplace (by decide) hs
  have hcut : CutInto "aba".toList "xababab".toList ["x".toList, "bab".toList] := by
    refine (cutInto_cons_iff (List.cons_ne_nil _ _)).2 ⟨"bab".toList, ?_, ?_⟩
    · exact cutFirst?_eq_some_iff_firstAt.1 (by decide)
    · refine cutInto_singleton_iff.2 ⟨rfl, ?_⟩
      rw [← occursIn_iff]
      decide
  rw [← hunique _ hcut] at hresult
  exact ⟨by decide, hs, hm, hcut, hresult, (hinsert hm).1 hs⟩

end CliParity.Edit
