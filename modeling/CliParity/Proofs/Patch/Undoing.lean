import CliParity.Proofs.Patch.Compatibility
import CliParity.Proofs.Patch.Placement

/-!
# Undoing a patch

An edit is undone by writing what was there over the text that it has written (`Edit.undoing`). All
occurrences of the new text have to be those that the edit has made: there was none before, and none
arises at the ends of what is written. The latter holds of `Undoable` edits, which evaluation
decides: what ends their new text and begins it again, in part, is what stood there before, too. The
one such text of the catalogue is that of the last patch, which begins and ends with a line feed.

`undo_result?` is this for all such edits, and `catalogue_undone` for the patches of the catalogue.
-/

set_option autoImplicit false

namespace CliParity

open Text

namespace Edit

variable {e : Edit} {s t : List Char}

/-- The text by whose presence the edit is seen to be done, and what goes back in its place. -/
def undoing : Edit → List Char × List Char
  | replace old new => (new, old)
  | replaceUnless _ old new => (new, old)
  | replaceBefore _ _ old new => (new, old)
  | insertAfter _ anchor text => (anchor ++ text, anchor)
  | appendToLastLine _ _ text => (text, [])

/-- The new text is found where it was put in. -/
structure Undoable (e : Edit) : Prop where
  ne_nil : e.undoing.1 ≠ []
  borders : BordersBegin e.undoing.1 e.written.1

instance (e : Edit) : Decidable e.Undoable :=
  decidable_of_iff (e.undoing.1 ≠ [] ∧ BordersBegin e.undoing.1 e.written.1)
    ⟨fun ⟨h₁, h₂⟩ => ⟨h₁, h₂⟩, fun ⟨h₁, h₂⟩ => ⟨h₁, h₂⟩⟩

/-- Every result is a rewriting, that of an edit which is not ready too. -/
theorem rewrites_of_result? (hr : e.Regular) (h : e.result? s = some t) :
    Rewrites e.written.1 e.written.2 s t := by
  by_cases hs : e.Ready s
  · obtain ⟨t', ht', hw, -⟩ := result?_of_ready hr hs
    obtain rfl := Option.some.inj (h.symm.trans ht')
    exact hw
  · rw [result?_of_not_ready hs h]
    exact .refl s

/-- An appended text is taken out again. -/
theorem replaceAll_of_appended {text front rest : List Char} (hne : text ≠ [])
    (hb : BordersBegin text ['\n']) (hn : ¬ text <:+: front ++ '\n' :: rest) :
    replaceAll text [] (front ++ text ++ '\n' :: rest) = front ++ '\n' :: rest := by
  have hfront : ¬ text <:+: front ++ ['\n'] := fun h => hn (h.trans ⟨[], rest, by simp⟩)
  have hrest : ¬ text <:+: '\n' :: rest := fun h => hn (h.trans ⟨front, [], by simp⟩)
  rw [replaceAll_of_firstAt hne (firstAt_of_borders hb hfront ('\n' :: rest)) hrest,
    List.append_nil]

theorem undo_result? (hr : e.Regular) (hu : e.Undoable) (h : e.result? s = some t)
    (hn : ¬ e.undoing.1 <:+: s) : replaceAll e.undoing.1 e.undoing.2 t = s := by
  cases e with
  | appendToLastLine marker anchor text =>
    obtain ⟨front, rest, hend, rfl⟩ := appendToLastLine?_eq_some_iff.1 (unlessMarker_iff.1 h).2
    rw [hend.text_eq] at hn ⊢
    exact replaceAll_of_appended hu.ne_nil hu.borders hn
  | _ => exact replaceAll_of_rewrites hu.ne_nil hu.borders (rewrites_of_result? hr h) hn

end Edit

namespace Patch

open Snippet

variable {p : Patch} {s t : List Char}

theorem undoable_catalogue : ∀ p ∈ catalogue, p.edit.Undoable := by
  rw [catalogue_eq, spelledImports.2, spelledInner.2, spelledStatsMethods.2]
  decide +kernel

/-- **Each patch is undone** by the opposite replacement, in texts that did not hold what it
writes. -/
theorem catalogue_undone (hp : p ∈ catalogue) (h : p.edit.result? s = some t)
    (hn : ¬ p.edit.undoing.1 <:+: s) :
    replaceAll p.edit.undoing.1 p.edit.undoing.2 t = s :=
  Edit.undo_result? (regular_catalogue p hp) (undoable_catalogue p hp) h hn

/-- The methods of the last patch, which begin and end with a line feed, are taken out again. -/
theorem stats_methods_undone :
    statsMethods ∈ catalogue ∧
      statsMethods.edit.result? (' ' :: unknownLogReturn ++ ['\n']) =
        some (' ' :: unknownLogReturn ++ Snippet.statsMethods ++ ['\n']) ∧
      ¬ Snippet.statsMethods <:+: ' ' :: unknownLogReturn ++ ['\n'] ∧
      replaceAll Snippet.statsMethods []
          (' ' :: unknownLogReturn ++ Snippet.statsMethods ++ ['\n']) =
        ' ' :: unknownLogReturn ++ ['\n'] := by
  have hp : statsMethods ∈ catalogue := by simp [catalogue]
  have hmarker : ¬ statsMarker <:+: ' ' :: unknownLogReturn ++ ['\n'] := by
    rw [← occursIn_iff]
    unfold statsMarker unknownLogReturn
    repeat rewrite [String.toList_ofList]
    decide
  have hlast : ¬ unknownLogReturn <:+: ['\n'] := by
    rw [← occursIn_iff]
    unfold unknownLogReturn
    rewrite [String.toList_ofList]
    decide
  have hresult : statsMethods.edit.result? ([' '] ++ unknownLogReturn ++ [] ++ ['\n']) =
      some ([' '] ++ unknownLogReturn ++ [] ++ Snippet.statsMethods ++ ['\n']) :=
    Edit.result?_appendToLastLine regular_statsMethods opening_statsMethods.anchor_line
      (by simpa using hmarker) (by simp) (by simp) hlast
  rw [List.append_nil] at hresult
  -- the methods hold the marker
  have habsent : ¬ Snippet.statsMethods <:+: ' ' :: unknownLogReturn ++ ['\n'] := by
    intro h
    have hline : '\n' ∉ statsMarker := by decide
    have hwritten : statsMarker <:+: Snippet.statsMethods ++ ['\n'] :=
      switchesOff_catalogue statsMethods hp statsMarker rfl
    rcases (infix_append_cons_iff hline).1 hwritten with hm | hm
    · exact hmarker (hm.trans h)
    · exact hmarker (hm.trans List.nil_infix)
  exact ⟨hp, hresult, habsent, catalogue_undone hp hresult habsent⟩

end Patch

end CliParity
