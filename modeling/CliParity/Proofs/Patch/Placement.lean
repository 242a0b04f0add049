import CliParity.Patch.Edit
import CliParity.Proofs.Text.Lines
import CliParity.Proofs.Text.Replacement

/-!
# Edits at one place

Two kinds of edit look for one place of a text: a replacement in front of a boundary, and a text
appended to a line. What they do is said here by places alone, for all parameters: also for anchors
and boundaries that are empty, overlap themselves or hold line feeds.

* `replaceBefore?_eq_some_iff`: what is in front of the first boundary is replaced, and the boundary
  and all behind it is kept.
* `appendToLastLine?_eq_some_iff`: the text goes in front of the first line feed from the start of
  the last anchor on (`EndsLastLine`). If it begins with a line feed no line of the text is touched
  (`lines_appended`).

`positional_edits` puts this together for texts without the marker.
-/

set_option autoImplicit false

namespace CliParity.Edit

open Text

variable {marker boundary old new anchor text s t : List Char}

/-- An edit with a marker is not done where the marker is. -/
theorem unless_of_absent {result : Option (List Char)} (hm : ¬ marker <:+: s) :
    (if contains s marker then none else result) = result := if_neg (mt contains_iff.1 hm)

/-! ## In front of a boundary -/

theorem replaceBefore?_eq_some_iff : replaceBefore? boundary old new s = some t ↔
    ∃ head tail, FirstAt boundary s head tail ∧ head ≠ [] ∧
      t = replaceAll old new head ++ boundary ++ tail := by
  simp only [← cutFirst?_eq_some_iff_firstAt]
  rw [replaceBefore?]
  constructor
  · intro h
    split at h
    · rename_i head tail hc
      split at h
      · cases h
      · rename_i hne
        exact ⟨head, tail, hc, by simpa using hne, (Option.some.inj h).symm⟩
    · cases h
  · intro ⟨head, tail, hc, hne, ht⟩
    rw [hc, ht]
    exact if_neg (by simpa using hne)

/-! ## At the end of a line -/

/-- The line on which the last `anchor` starts, past the start of the text, ends behind `front`; a
line feed and `rest` follow. -/
def EndsLastLine (anchor s front rest : List Char) : Prop :=
  ∃ before after line, LastAt anchor s before after ∧ before ≠ [] ∧
    anchor ++ after = line ++ '\n' :: rest ∧ '\n' ∉ line ∧ front = before ++ line

theorem EndsLastLine.text_eq {front rest : List Char} (h : EndsLastLine anchor s front rest) :
    s = front ++ '\n' :: rest := by
  obtain ⟨before, after, line, hlast, -, hline, -, rfl⟩ := h
  rw [hlast.text, List.append_assoc, hline, List.append_assoc]

theorem exists_endsLastLine_iff : (∃ front rest, EndsLastLine anchor s front rest) ↔
    ∃ before after, LastAt anchor s before after ∧ before ≠ [] ∧ '\n' ∈ anchor ++ after := by
  constructor
  · intro ⟨front, rest, before, after, line, hlast, hne, hline, _, _⟩
    exact ⟨before, after, hlast, hne, by simp [hline]⟩
  · intro ⟨before, after, hlast, hne, hn⟩
    obtain ⟨line, rest, hline, hl⟩ := List.eq_append_cons_of_mem hn
    exact ⟨before ++ line, rest, before, after, line, hlast, hne, hline, hl, rfl⟩

theorem cutFirst?_newline_eq_some_iff {line rest : List Char} :
    cutFirst? ['\n'] s = some (line, rest) ↔ s = line ++ '\n' :: rest ∧ '\n' ∉ line := by
  rw [cutFirst?_eq_some_iff (List.cons_ne_nil _ _) (by decide), List.singleton_infix_iff,
    List.append_assoc, List.singleton_append]

theorem appendToLastLine?_eq_some_iff : appendToLastLine? anchor text s = some t ↔
    ∃ front rest, EndsLastLine anchor s front rest ∧ t = front ++ text ++ '\n' :: rest := by
  constructor
  · intro h
    rw [appendToLastLine?] at h
    split at h
    · rename_i before after hc
      split at h
      · cases h
      · rename_i hne
        obtain ⟨⟨line, rest⟩, hl, ht⟩ := Option.map_eq_some_iff.1 h
        obtain ⟨hline, hn⟩ := cutFirst?_newline_eq_some_iff.1 hl
        exact ⟨before ++ line, rest, ⟨before, after, line, cutLast?_eq_some_iff_lastAt.1 hc,
          by simpa using hne, hline, hn, rfl⟩, ht.symm⟩
    · cases h
  · intro ⟨front, rest, ⟨before, after, line, hlast, hne, hline, hn, hfront⟩, ht⟩
    have hl := cutFirst?_newline_eq_some_iff.2 ⟨hline, hn⟩
    rw [appendToLastLine?, cutLast?_eq_some_iff_lastAt.2 hlast]
    simp [hne, hl, hfront, ht]

/-- A text that begins with a line feed, put in front of another, stands between two lines. -/
theorem lines_appended (ht : text.head? = some '\n') (front rest : List Char) :
    lines (front ++ text ++ '\n' :: rest) = lines front ++ (lines text).tail ++ lines rest := by
  obtain ⟨added, rfl⟩ := List.head?_eq_some_iff.1 ht
  rw [lines_append, lines_append, lines_cons_newline, List.tail_cons]

/-! ## Both in a text without the marker -/

theorem isSome_appendToLastLine_iff : (appendToLastLine? anchor text s).isSome ↔
    ∃ before after, LastAt anchor s before after ∧ before ≠ [] ∧ '\n' ∈ anchor ++ after := by
  rw [← exists_endsLastLine_iff, Option.isSome_iff_exists]
  simp only [appendToLastLine?_eq_some_iff]
  exact ⟨fun ⟨_, front, rest, h, _⟩ => ⟨front, rest, h⟩, fun ⟨front, rest, h⟩ =>
    ⟨_, front, rest, h, rfl⟩⟩

theorem isSome_replaceBefore_iff : (replaceBefore? boundary old new s).isSome ↔
    ∃ head tail, FirstAt boundary s head tail ∧ head ≠ [] := by
  rw [Option.isSome_iff_exists]
  simp only [replaceBefore?_eq_some_iff]
  exact ⟨fun ⟨_, head, tail, h, hne, _⟩ => ⟨head, tail, h, hne⟩, fun ⟨head, tail, h, hne⟩ =>
    ⟨_, head, tail, h, hne, rfl⟩⟩

/-- **What edits at one place do** in a text without their marker. A text is appended if the last
anchor starts past the start and a line feed comes at or behind its start: right in front of the
first such line feed, and if it begins with one itself, as a block of lines between two that stay.
A replacement is done if the first boundary starts past the start: in front of it alone. -/
theorem positional_edits (hm : ¬ marker <:+: s) :
    (∀ anchor text : List Char,
      (((appendToLastLine marker anchor text).result? s).isSome ↔
        ∃ before after, LastAt anchor s before after ∧ before ≠ [] ∧ '\n' ∈ anchor ++ after) ∧
      ∀ t, (appendToLastLine marker anchor text).result? s = some t →
        ∃ before after line rest, LastAt anchor s before after ∧
          anchor ++ after = line ++ '\n' :: rest ∧ '\n' ∉ line ∧
          s = before ++ line ++ '\n' :: rest ∧ t = before ++ line ++ text ++ '\n' :: rest ∧
          (text.head? = some '\n' → ∃ above below, above ≠ [] ∧ below ≠ [] ∧
            lines s = above ++ below ∧ lines t = above ++ (lines text).tail ++ below)) ∧
    ∀ boundary old new : List Char,
      (((replaceBefore marker boundary old new).result? s).isSome ↔
        ∃ head tail, FirstAt boundary s head tail ∧ head ≠ []) ∧
      ∀ t, (replaceBefore marker boundary old new).result? s = some t → old ≠ [] →
        ∃ head tail head', FirstAt boundary s head tail ∧ Replaced old new head head' ∧
          t = head' ++ boundary ++ tail := by
  refine ⟨fun anchor text => ?_, fun boundary old new => ?_⟩
  · rw [result?, unless_of_absent hm]
    refine ⟨isSome_appendToLastLine_iff, fun t h => ?_⟩
    obtain ⟨front, rest, hend, ht⟩ := appendToLastLine?_eq_some_iff.1 h
    have hs := hend.text_eq
    obtain ⟨before, after, line, hlast, -, hline, hn, rfl⟩ := hend
    refine ⟨before, after, line, rest, hlast, hline, hn, hs, ht, fun hhead => ?_⟩
    refine ⟨lines (before ++ line), lines rest, lines_ne_nil _, lines_ne_nil _, ?_, ?_⟩
    · rw [hs, lines_append]
    · rw [ht, lines_appended hhead]
  · rw [result?, unless_of_absent hm]
    refine ⟨isSome_replaceBefore_iff, fun t h ho => ?_⟩
    obtain ⟨head, tail, hfirst, -, ht⟩ := replaceBefore?_eq_some_iff.1 h
    exact ⟨head, tail, replaceAll old new head, hfirst, (replaced_iff ho).2 rfl, ht⟩

/-- An anchor that overlaps itself, and a boundary that the text to be replaced straddles. -/
theorem placed_with_overlaps :
    ¬ "#".toList <:+: "aaab\nab".toList ∧
      (∃ before after line rest, LastAt "aa".toList "aaab\nab".toList before after ∧
        "aa".toList ++ after = line ++ '\n' :: rest ∧
        "aaab\n#\nab".toList = before ++ line ++ "\n#".toList ++ '\n' :: rest) ∧
      ∃ head tail head', FirstAt "b\n".toList "aaab\nab".toList head tail ∧
        Replaced "ab".toList "c".toList head head' ∧
        "aaab\nab".toList = head' ++ "b\n".toList ++ tail := by
  have hm : ¬ "#".toList <:+: "aaab\nab".toList := by
    rw [← occursIn_iff]
    decide
  obtain ⟨happend, hreplace⟩ := positional_edits hm
  obtain ⟨before, after, line, rest, hlast, hline, -, -, ht, -⟩ :=
    (happend "aa".toList "\n#".toList).2 "aaab\n#\nab".toList (by decide)
  exact ⟨hm, ⟨before, after, line, rest, hlast, hline, ht⟩,
    (hreplace "b\n".toList "ab".toList "c".toList).2 _ (by decide +kernel) (by decide)⟩

end CliParity.Edit
