import CliParity.Proofs.Patch.Preamble
import CliParity.Proofs.Patch.Undoing
import CliParity.Proofs.Text.InsertedLines

/-!
# The patches that only add

Four patches of the catalogue write no text over. Two of them write at the end of a line: behind an
import, with its line feed, and in front of the line feed behind the log command. These keep all
lines. The other two write behind an anchor wherever in a line it stands (`Edit.behind?`), so they
keep the lines just where each anchor ends its line (`additive_keeps_lines_iff`). A comment behind
the anchor is moved to the last line that is added (`comment_moved`).
-/

set_option autoImplicit false

namespace CliParity

open Text

/-- What an edit finds anywhere in a line, and writes behind. -/
def Edit.behind? : Edit → Option (List Char)
  | replaceUnless _ old _ => some old
  | insertAfter _ anchor _ => some anchor
  | _ => none

namespace Patch

open Snippet

variable {p : Patch} {s t : List Char}

/-- The patches that only add to a text. -/
def additive : List Patch := [imports, tempRadioState, boardRouting, statsMethods]

theorem ofLines_append (above below : List String) (ha : above ≠ []) (hb : below ≠ []) :
    ofLines (above ++ below) = ofLines above ++ '\n' :: ofLines below := by
  rw [ofLines, List.map_append, intercalate_append (by simpa using ha) (by simpa using hb)]
  rfl

/-! ## At the end of a line -/

theorem lines_sublist_of_imports (h : imports.edit.result? s = some t) :
    (lines s).Sublist (lines t) := by
  obtain ⟨block, hblock⟩ : ∃ block, timeAndSubprocessImport =
      timeLine ++ ('\n' :: block ++ ['\n']) :=
    ⟨"import subprocess  # pymc_console: for systemctl commands".toList, by decide⟩
  have hw : Rewrites timeImport timeAndSubprocessImport s t :=
    Edit.rewrites_of_result? regular_imports h
  rw [timeImport_eq, hblock] at hw
  exact hw.narrow.lines_sublist

theorem lines_sublist_of_statsMethods (h : statsMethods.edit.result? s = some t) :
    (lines s).Sublist (lines t) := by
  obtain ⟨block, hblock⟩ := List.head?_eq_some_iff.1 opening_statsMethods.text_line
  have hw : Rewrites ['\n'] (Snippet.statsMethods ++ ['\n']) s t :=
    Edit.rewrites_of_result? regular_statsMethods h
  rw [hblock] at hw
  exact hw.lines_sublist

/-! ## Behind an anchor -/

theorem not_overlaps_configAssignment : ¬ Overlaps configAssignment configAssignment := by
  unfold configAssignment
  rewrite [String.toList_ofList]
  decide +kernel

theorem keeps_lines_iff_of_tempRadioState (h : tempRadioState.edit.result? s = some t) :
    (lines s).Sublist (lines t) ↔ EndsLines configAssignment s := by
  have hfacts : '\n' ∉ configAssignment ∧ Snippet.tempRadioState.head? = some '\n' ∧
      Separate Snippet.tempRadioState configAssignment := by
    unfold configAssignment Snippet.tempRadioState
    repeat rewrite [String.toList_ofList]
    rewrite [ofLines_of_spelled]
    rotate_left
    repeat' first | exact Spelled.single | apply Spelled.cons
    decide +kernel
  obtain ⟨hline, hhead, hs⟩ := hfacts
  obtain ⟨block, hblock⟩ := List.head?_eq_some_iff.1 hhead
  obtain ⟨-, ht⟩ := Edit.unlessMarker_iff.1 h
  rw [hblock] at hs ht
  rw [← Option.some.inj ht]
  exact lines_sublist_replaceAll_iff hline not_overlaps_configAssignment hs

/-- The state behind an anchor at the start. -/
theorem result?_configAssignment {rest : List Char} (hm : ¬ taskMarker <:+: configAssignment ++ rest)
    (hr : ¬ configAssignment <:+: rest) :
    tempRadioState.edit.result? (configAssignment ++ rest) =
      some (configAssignment ++ Snippet.tempRadioState ++ rest) := by
  have hne : configAssignment ≠ [] := by decide
  have hc : cutFirst? configAssignment (configAssignment ++ rest) = some ([], rest) :=
    (cutFirst?_eq_some_iff hne not_overlaps_configAssignment).2 ⟨rfl, by simpa using hne⟩
  rw [tempRadioState, Edit.result?, Edit.unless_of_absent hm, replaceAll_of_cutFirst? hne hc,
    replaceAll_of_absent hr, List.nil_append]

/-- The second line of the version command's route. -/
def versionReturn : List Char := ofLines ["            return self._cmd_version()"]

/-- The route that is added behind it. -/
def boardRoute : List Char := ofLines
  ["        elif command == \"board\":",
   "            return self._cmd_board()"]

theorem keeps_lines_iff_of_boardRouting (h : boardRouting.edit.result? s = some t) :
    (lines s).Sublist (lines t) ↔ EndsLines versionRouting s := by
  have hversion : versionRouting = ofLines ["elif command == \"ver\":"] ++ '\n' :: versionReturn :=
    ofLines_append [_] [_] (by simp) (by simp)
  have hboth : versionAndBoardRouting = versionRouting ++ '\n' :: boardRoute :=
    ofLines_append [_, _] [_, _] (by simp) (by simp)
  have hfacts : '\n' ∉ versionReturn ∧ ¬ Overlaps versionRouting versionRouting ∧
      ∀ l ∈ lines boardRoute, ¬ versionReturn <+: l ∧ ¬ l <+: versionReturn := by
    unfold versionReturn boardRoute versionRouting
    repeat rewrite [ofLines_of_spelled]
    rotate_left
    repeat' first | exact Spelled.single | apply Spelled.cons
    decide +kernel
  obtain ⟨hline, ho, hdiffers⟩ := hfacts
  obtain ⟨-, ht⟩ := Edit.unlessMarker_iff.1 h
  rw [Edit.replaceIn?, if_pos (contains_iff.2 (Edit.infix_of_replaceIn? ht)), hboth] at ht
  rw [← Option.some.inj ht]
  exact lines_sublist_replaceAll_iff_of_lines hversion hline ho hdiffers

/-! ## All four -/

/-- **What the patches that only add keep.** The lines of the text are among those of the result, in
their order, exactly if each anchor behind which the patch writes ends its line. -/
theorem additive_keeps_lines_iff (hp : p ∈ additive) (h : p.edit.result? s = some t) :
    (lines s).Sublist (lines t) ↔ ∀ anchor ∈ p.edit.behind?, EndsLines anchor s := by
  simp only [additive, List.mem_cons, List.not_mem_nil, or_false] at hp
  rcases hp with rfl | rfl | rfl | rfl
  · simp [imports, Edit.behind?, lines_sublist_of_imports h]
  · simp [keeps_lines_iff_of_tempRadioState h, tempRadioState, Edit.behind?]
  · simp [keeps_lines_iff_of_boardRouting h, boardRouting, Edit.behind?]
  · simp [statsMethods, Edit.behind?, lines_sublist_of_statsMethods h]

/-- An assignment with a comment behind it. -/
def commentedAssignment : List Char := configAssignment ++ "  # section\n".toList

/-- A comment behind the anchor is moved to the last line that is added. -/
theorem comment_moved :
    tempRadioState ∈ additive ∧
      tempRadioState.edit.result? commentedAssignment =
        some (configAssignment ++ Snippet.tempRadioState ++ "  # section\n".toList) ∧
      ¬ (lines commentedAssignment).Sublist
        (lines (configAssignment ++ Snippet.tempRadioState ++ "  # section\n".toList)) := by
  have hresult : tempRadioState.edit.result? commentedAssignment =
      some (configAssignment ++ Snippet.tempRadioState ++ "  # section\n".toList) :=
    result?_configAssignment (by rw [← occursIn_iff]; decide +kernel)
      (by rw [← occursIn_iff]; decide +kernel)
  refine ⟨by simp [additive], hresult, fun h => ?_⟩
  have hends := (keeps_lines_iff_of_tempRadioState hresult).1 h [] "  # section\n".toList rfl
  exact absurd (hends ' ' rfl) (by decide)

/-- Behind an anchor that ends its line, the state is added. -/
theorem state_added :
    tempRadioState ∈ additive ∧
      tempRadioState.edit.result? (configAssignment ++ ['\n']) =
        some (configAssignment ++ Snippet.tempRadioState ++ ['\n']) ∧
      (lines (configAssignment ++ ['\n'])).Sublist
        (lines (configAssignment ++ Snippet.tempRadioState ++ ['\n'])) := by
  have hp : tempRadioState ∈ additive := by simp [additive]
  have hlast : ¬ configAssignment <:+: ['\n'] := by
    rw [← occursIn_iff]
    decide +kernel
  have hresult : tempRadioState.edit.result? (configAssignment ++ ['\n']) =
      some (configAssignment ++ Snippet.tempRadioState ++ ['\n']) :=
    result?_configAssignment (by rw [← occursIn_iff]; decide +kernel) hlast
  have hends : EndsLines configAssignment ([] ++ configAssignment ++ ['\n']) :=
    (endsLines_iff_of_first not_overlaps_configAssignment (by decide)).2
      ⟨by simp, endsLines_of_absent hlast⟩
  refine ⟨hp, hresult, (additive_keeps_lines_iff hp hresult).2 fun anchor hanchor => ?_⟩
  obtain rfl : configAssignment = anchor := Option.some.inj hanchor
  exact hends

end Patch

end CliParity
