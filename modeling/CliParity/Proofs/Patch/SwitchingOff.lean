import CliParity.Proofs.Patch.Placement
import CliParity.Proofs.Patch.Readiness

/-!
# Edits that switch themselves off

An edit that makes a difference leaves the text that it writes (`written_infix_of_result?`),
whatever its parameters. If this holds the marker, the edit is not done again
(`result?_eq_none_of_marker`). A plain replacement has no marker: it is not done again if none of
what it replaces is left, nor arises where the new text meets the old surroundings
(`not_infix_replaceAll`). `edits_switch_off` says both.
-/

set_option autoImplicit false

namespace CliParity

open Text

variable {old new m s t : List Char} {e : Edit}

namespace Text

/-- The empty text is found everywhere, at the end too. -/
theorem suffix_replaceAll_nil (new s : List Char) : new <:+ replaceAll [] new s := by
  change new <:+ s.foldr (fun c r => new ++ c :: r) new
  induction s with
  | nil => exact List.suffix_refl new
  | cons c s ih => exact ih.trans ⟨new ++ [c], by simp⟩

/-- A replacement that makes a difference leaves the new text, also if the old one is empty. -/
theorem infix_replaceAll_of_ne (h : replaceAll old new s ≠ s) : new <:+: replaceAll old new s := by
  by_cases ho : old = []
  · subst ho
    exact (suffix_replaceAll_nil new s).isInfix
  · have hs : old <:+: s := by
      by_contra hn
      exact h (replaceAll_of_absent hn)
    exact infix_replaceAll ho hs

end Text

namespace Edit

theorem replaceIn?_eq_some_iff :
    replaceIn? old new s = some t ↔ old <:+: s ∧ t = replaceAll old new s := by
  rw [replaceIn?, Option.ite_none_right_eq_some, contains_iff, Option.some.injEq, eq_comm]

/-- What an edit writes is in its result. -/
theorem written_infix_of_result? (h : e.result? s = some t) (hne : t ≠ s) :
    e.written.2 <:+: t := by
  cases e with
  | replace old new =>
    obtain ⟨-, rfl⟩ := replaceIn?_eq_some_iff.1 h
    exact infix_replaceAll_of_ne hne
  | replaceUnless marker old new =>
    obtain ⟨-, rfl⟩ := replaceIn?_eq_some_iff.1 (unlessMarker_iff.1 h).2
    exact infix_replaceAll_of_ne hne
  | replaceBefore marker boundary old new =>
    obtain ⟨head, tail, hfirst, -, rfl⟩ := replaceBefore?_eq_some_iff.1 (unlessMarker_iff.1 h).2
    have hhead : replaceAll old new head ≠ head := by
      intro he
      rw [he] at hne
      exact hne hfirst.text.symm
    have hnew : new <:+: replaceAll old new head := infix_replaceAll_of_ne hhead
    exact hnew.trans ⟨[], boundary ++ tail, by simp⟩
  | insertAfter marker anchor text =>
    obtain rfl := Option.some.inj (unlessMarker_iff.1 h).2
    exact infix_replaceAll_of_ne hne
  | appendToLastLine marker anchor text =>
    obtain ⟨front, rest, -, rfl⟩ := appendToLastLine?_eq_some_iff.1 (unlessMarker_iff.1 h).2
    exact ⟨front, rest, by simp [written]⟩

theorem result?_eq_none_of_marker (hm : m ∈ e.marker?) (h : m <:+: t) : e.result? t = none := by
  cases e with
  | replace old new => cases hm
  | _ =>
    obtain rfl := Option.some.inj hm
    exact if_pos (contains_iff.2 h)

/-- **Edits switch themselves off.** An edit whose marker is in what it writes is not done where it
made a difference. A replacement of a text by one that is separate from it leaves none of it, and is
not done again. -/
theorem edits_switch_off :
    (∀ (e : Edit) (m s t : List Char), m ∈ e.marker? → m <:+: e.written.2 →
      e.result? s = some t → t ≠ s → e.result? t = none) ∧
    ∀ old new s t : List Char, Separate new old → (replace old new).result? s = some t →
      ¬ old <:+: t ∧ (replace old new).result? t = none := by
  refine ⟨fun e m s t hm hw h hne => ?_, fun old new s t hsep h => ?_⟩
  · exact result?_eq_none_of_marker hm (hw.trans (written_infix_of_result? h hne))
  · obtain ⟨-, rfl⟩ := replaceIn?_eq_some_iff.1 h
    have ho : old ≠ [] := by
      rintro rfl
      exact hsep.not_holds List.nil_infix
    have habsent : ¬ old <:+: replaceAll old new s := not_infix_replaceAll ho hsep s
    exact ⟨habsent, if_neg (mt contains_iff.1 habsent)⟩

/-- A text that goes everywhere, and a text that overlaps itself. -/
theorem switched_off_with_overlaps :
    (insertAfter ['#'] [] ['#']).result? "ab".toList = some "#a#b#".toList ∧
      (insertAfter ['#'] [] ['#']).result? "#a#b#".toList = none ∧
      Separate "c".toList "aba".toList ∧
      (replace "aba".toList "c".toList).result? "ababa".toList = some "cba".toList ∧
      ¬ "aba".toList <:+: "cba".toList ∧
      (replace "aba".toList "c".toList).result? "cba".toList = none := by
  obtain ⟨hmarked, hplain⟩ := edits_switch_off
  have hinsert : (insertAfter ['#'] [] ['#']).result? "ab".toList = some "#a#b#".toList := by decide
  have hsep : Separate "c".toList "aba".toList := by decide
  have hreplace : (replace "aba".toList "c".toList).result? "ababa".toList = some "cba".toList := by
    decide +kernel
  exact ⟨hinsert, hmarked _ ['#'] _ _ rfl (List.infix_refl _) hinsert (by decide), hsep, hreplace,
    hplain _ _ _ _ hsep hreplace⟩

end Edit

end CliParity
