import CliParity.Proofs.Text.InLine
import CliParity.Proofs.Text.Rewriting

/-!
# Lines put between others

Where a text that begins with a line feed is put in front of a line feed, the lines that were there
stay (`Rewrites.lines_sublist`). Behind an anchor it may be put in the middle of a line, and this
line is lost: the rest of it goes to the end of what was put in. So all lines stay where each anchor
ends its line, and only there.

There are two proofs of the latter. If the anchor is within a line, each of those lines that stay
ends behind its anchor, since the lines of the result do (`lines_sublist_replaceAll_iff`). An anchor
that runs into a second line may lose its first one to other text, and what counts is how many lines
begin with the end of the anchor and go on (`lines_sublist_replaceAll_iff_of_lines`).
-/

set_option autoImplicit false

namespace CliParity.Text

variable {p s t before after block above last : List Char}

/-- Each `p` in `s` ends a line. -/
def EndsLines (p s : List Char) : Prop := ∀ x y, s = x ++ p ++ y → ∀ c ∈ y.head?, c = '\n'

/-! ## Where anchors end their lines -/

theorem endsLines_of_absent (h : ¬ p <:+: s) : EndsLines p s :=
  fun x y hs => absurd ⟨x, y, hs.symm⟩ h

/-- The first anchor, and those behind it. -/
theorem endsLines_iff_of_first (ho : ¬ Overlaps p p) (hb : ¬ p <:+: before) :
    EndsLines p (before ++ p ++ after) ↔ (∀ c ∈ after.head?, c = '\n') ∧ EndsLines p after := by
  constructor
  · intro h
    exact ⟨h before after rfl, fun x y hs => h (before ++ p ++ x) y (by simp [hs])⟩
  · intro ⟨hhead, h⟩ x y hs
    rcases self_occurrence_cases ho hs with ⟨m, hm, -⟩ | ⟨m, -, hm⟩ | ⟨-, hy⟩
    · exact absurd ⟨x, m, hm.symm⟩ hb
    · exact h m y hm
    · exact hy ▸ hhead

theorem EndsLines.append_left (h : EndsLines p s) (hs : Separate t p) : EndsLines p (t ++ s) := by
  intro x y hxy
  rcases hs.occurrence_cases (x := []) hxy with ⟨m, hm, -⟩ | ⟨m, -, hm⟩
  · have hp : p = [] := by simp_all
    exact absurd (hp ▸ List.nil_infix) hs.not_holds
  · exact h m y hm

/-- An anchor within a line ends it in every text with no lines but those of one where it does. -/
theorem EndsLines.of_lines_subset (h : EndsLines p t) (hp : '\n' ∉ p) (hl : lines s ⊆ lines t) :
    EndsLines p s := by
  intro x y hs c hc
  by_contra hne
  obtain ⟨z, rfl⟩ := List.head?_eq_some_iff.1 hc
  have hline : '\n' ∉ p ++ [c] := by simp [hp, Ne.symm hne]
  have hi : p ++ [c] <:+: s := ⟨x, z, by simp [hs]⟩
  obtain ⟨l, hls, hpl⟩ := (infix_iff_lines hline).1 hi
  obtain ⟨a, b, ht⟩ := (infix_iff_lines hline).2 ⟨l, hl hls, hpl⟩
  exact hne (h a (c :: b) (by simp [← ht]) c rfl)

/-! ## Lines that stay -/

theorem tail_lines_sublist (a b : List Char) : (lines b).tail.Sublist (lines (a ++ b)) := by
  obtain ⟨front, l, h⟩ := exists_lines_append a
  rw [h, ← List.tail_modifyHead (f := (l ++ ·))]
  exact (List.tail_sublist _).trans (List.sublist_append_right front _)

theorem lines_append_of_head? (h : ∀ c ∈ after.head?, c = '\n') (before : List Char) :
    lines (before ++ after) = lines before ++ (lines after).tail := by
  cases after with
  | nil => simp [lines_of_not_mem]
  | cons c after =>
    obtain rfl := h c rfl
    rw [lines_append, lines_cons_newline, List.tail_cons]

/-- In front of a line feed, a text that begins with one takes lines of its own. -/
theorem Rewrites.lines_sublist (h : Rewrites ['\n'] ('\n' :: block ++ ['\n']) s t) :
    (lines s).Sublist (lines t) := by
  induction h with
  | refl s => exact List.Sublist.refl _
  | @step before s t _ ih =>
    have hs : lines (before ++ ['\n'] ++ s) = lines before ++ lines s := by
      simpa using lines_append before s
    have ht : lines (before ++ ('\n' :: block ++ ['\n']) ++ t) =
        lines before ++ (lines block ++ lines t) := by
      rw [← lines_append, ← lines_append]
      simp
    rw [hs, ht]
    exact (ih.trans (List.sublist_append_right _ _)).append_left _

/-- So it does behind anchors that end their lines. -/
theorem lines_sublist_replaceAll (hp : p ≠ []) (ho : ¬ Overlaps p p) (h : EndsLines p s) :
    (lines s).Sublist (lines (replaceAll p (p ++ '\n' :: block) s)) := by
  induction s using replace_induction hp with
  | none s hn =>
    rw [replaceAll_of_absent hn]
  | some before after hb hc ih =>
    obtain ⟨hhead, hafter⟩ := (endsLines_iff_of_first ho hb).1 h
    rw [replaceAll_of_cutFirst? hp hc, lines_append_of_head? hhead]
    generalize replaceAll p (p ++ '\n' :: block) after = r at ih ⊢
    have hr : lines (before ++ (p ++ '\n' :: block) ++ r) =
        lines (before ++ p) ++ lines (block ++ r) := by
      rw [← lines_append]
      simp
    rw [hr]
    exact ((ih hafter).tail.trans (tail_lines_sublist block r)).append_left _

/-- Behind each anchor of the result is what was put in. -/
theorem endsLines_replaceAll (hp : p ≠ []) (ho : ¬ Overlaps p p)
    (hs : Separate ('\n' :: block) p) (s : List Char) :
    EndsLines p (replaceAll p (p ++ '\n' :: block) s) := by
  induction s using replace_induction hp with
  | none s hn =>
    rw [replaceAll_of_absent hn]
    exact endsLines_of_absent hn
  | some before after hb hc ih =>
    rw [replaceAll_of_cutFirst? hp hc, ← List.append_assoc, List.append_assoc _ ('\n' :: block),
      endsLines_iff_of_first ho hb]
    exact ⟨by simp, ih.append_left hs⟩

/-- Behind an anchor within a line, the lines stay exactly where all anchors end theirs. -/
theorem lines_sublist_replaceAll_iff (hp : '\n' ∉ p) (ho : ¬ Overlaps p p)
    (hs : Separate ('\n' :: block) p) :
    (lines s).Sublist (lines (replaceAll p (p ++ '\n' :: block) s)) ↔ EndsLines p s := by
  have hne : p ≠ [] := fun h => hs.not_holds (h ▸ List.nil_infix)
  exact ⟨fun h => (endsLines_replaceAll hne ho hs s).of_lines_subset hp h.subset,
    lines_sublist_replaceAll hne ho⟩

/-! ## Anchors of more than one line -/

/-- The line begins with `last` and goes on. -/
def goesOn (last l : List Char) : Bool := last.isPrefixOf l && l != last

theorem goesOn_append (last first : List Char) : goesOn last (last ++ first) = !first.isEmpty := by
  cases first <;> simp [goesOn]

/-- No line of a block that differs from `last` early goes on from it, whatever is behind. -/
theorem countP_goesOn_append (h : ∀ l ∈ lines block, ¬ last <+: l ∧ ¬ l <+: last)
    (r : List Char) :
    (lines (block ++ r)).countP (goesOn last) = (lines r).tail.countP (goesOn last) := by
  have hdiffers {l : List Char} (hl : l ∈ lines block) (m : List Char) :
      goesOn last (l ++ m) = false := by
    have hn : ¬ last <+: l ++ m := fun hi =>
      (List.prefix_or_prefix_of_prefix hi (List.prefix_append l m)).elim (h l hl).1 (h l hl).2
    simp [goesOn, hn]
  obtain ⟨front, l, hlines⟩ := exists_lines_append block
  have hblock : lines block = front ++ [l] := by
    simpa [lines_of_not_mem] using hlines []
  obtain ⟨first, rest, hr⟩ := List.exists_cons_of_ne_nil (lines_ne_nil r)
  have hfront : front.countP (goesOn last) = 0 := by
    rw [List.countP_eq_zero]
    intro m hm
    simpa using hdiffers (hblock ▸ List.mem_append_left _ hm) []
  rw [hlines, hr, List.modifyHead_cons, List.countP_append, hfront, List.countP_cons,
    hdiffers (by simp [hblock])]
  simp

/-- The first line is empty at a line feed and at the end. -/
theorem eq_nil_of_lines_iff {first : List Char} {rest : List (List Char)}
    (h : lines s = first :: rest) : first = [] ↔ ∀ c ∈ s.head?, c = '\n' := by
  cases s with
  | nil =>
    rw [lines_of_not_mem List.not_mem_nil] at h
    simp [(List.cons.inj h).1.symm]
  | cons c s =>
    by_cases hc : c = '\n'
    · rw [hc, lines_cons_newline] at h
      simp [(List.cons.inj h).1.symm, hc]
    · obtain ⟨l, ls, hs⟩ := List.exists_cons_of_ne_nil (lines_ne_nil s)
      rw [lines_cons hc, hs, List.modifyHead_cons] at h
      simp [(List.cons.inj h).1.symm, hc]

/-- Behind an anchor that does not end its line one line goes on, besides those of the front and of
the rest. -/
theorem exists_countP_goesOn_eq (hl : '\n' ∉ last) (above before : List Char) : ∃ n, ∀ after,
    ∃ k, (k = 0 ↔ ∀ c ∈ after.head?, c = '\n') ∧
      (lines (before ++ (above ++ '\n' :: last) ++ after)).tail.countP (goesOn last) =
        n + k + (lines after).tail.countP (goesOn last) := by
  obtain ⟨l, ls, hfront⟩ := List.exists_cons_of_ne_nil (lines_ne_nil (before ++ above))
  refine ⟨ls.countP (goesOn last), fun after => ?_⟩
  obtain ⟨first, rest, hafter⟩ := List.exists_cons_of_ne_nil (lines_ne_nil after)
  have hlines : lines (before ++ (above ++ '\n' :: last) ++ after) =
      l :: ls ++ (last ++ first) :: rest :=
    calc lines (before ++ (above ++ '\n' :: last) ++ after)
        = lines (before ++ above ++ '\n' :: (last ++ after)) := by simp
      _ = l :: ls ++ (last ++ first) :: rest := by
        rw [lines_append, hfront, lines_append_of_not_mem hl, hafter, List.modifyHead_cons]
  rw [← eq_nil_of_lines_iff hafter]
  simp only [hlines, hafter, List.cons_append, List.tail_cons, List.countP_append,
    List.countP_cons, goesOn_append]
  cases first with
  | nil => exact ⟨0, by simp⟩
  | cons c first =>
    refine ⟨1, by simp, ?_⟩
    simp only [List.isEmpty_cons, Bool.not_false, if_true]
    omega

/-- What was put in takes no line that goes on, and takes one where an anchor does not end its
line. -/
theorem countP_goesOn_replaceAll (hp : p = above ++ '\n' :: last) (hl : '\n' ∉ last)
    (ho : ¬ Overlaps p p) (h : ∀ l ∈ lines block, ¬ last <+: l ∧ ¬ l <+: last) (s : List Char) :
    (lines (replaceAll p (p ++ '\n' :: block) s)).tail.countP (goesOn last) ≤
        (lines s).tail.countP (goesOn last) ∧
      (¬ EndsLines p s →
        (lines (replaceAll p (p ++ '\n' :: block) s)).tail.countP (goesOn last) <
          (lines s).tail.countP (goesOn last)) := by
  have hne : p ≠ [] := by simp [hp]
  induction s using replace_induction hne with
  | none s hn =>
    rw [replaceAll_of_absent hn]
    exact ⟨Nat.le_refl _, fun h => absurd (endsLines_of_absent hn) h⟩
  | some before after hb hc ih =>
    rw [replaceAll_of_cutFirst? hne hc, endsLines_iff_of_first ho hb]
    generalize replaceAll p (p ++ '\n' :: block) after = r at ih ⊢
    obtain ⟨n, hn⟩ := exists_countP_goesOn_eq hl above before
    obtain ⟨k, hk, hs⟩ := hn after
    obtain ⟨k', hk', ht⟩ := hn ('\n' :: (block ++ r))
    obtain rfl : k' = 0 := hk'.2 (by simp)
    rw [← hp] at hs ht
    have htext : before ++ (p ++ '\n' :: block) ++ r = before ++ p ++ '\n' :: (block ++ r) := by
      simp
    rw [lines_cons_newline, List.tail_cons, countP_goesOn_append h] at ht
    rw [htext, ht, hs, ← hk]
    refine ⟨by omega, fun hends => ?_⟩
    by_cases hhead : k = 0
    · have hlt := ih.2 fun hafter => hends ⟨hhead, hafter⟩
      omega
    · omega

/-- Behind an anchor that runs into a second line, the lines stay exactly where all anchors end
theirs. -/
theorem lines_sublist_replaceAll_iff_of_lines (hp : p = above ++ '\n' :: last) (hl : '\n' ∉ last)
    (ho : ¬ Overlaps p p) (h : ∀ l ∈ lines block, ¬ last <+: l ∧ ¬ l <+: last) :
    (lines s).Sublist (lines (replaceAll p (p ++ '\n' :: block) s)) ↔ EndsLines p s := by
  refine ⟨fun hsub => ?_, lines_sublist_replaceAll (by simp [hp]) ho⟩
  by_contra hends
  have hlt := (countP_goesOn_replaceAll hp hl ho h s).2 hends
  exact absurd hsub.tail.countP_le (Nat.not_le_of_gt hlt)

end CliParity.Text
