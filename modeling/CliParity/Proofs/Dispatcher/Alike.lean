import CliParity.Dispatcher.Extraction
import Mathlib.Data.List.Forall2

/-!
# Lines that act alike

A line acts on a scan by its comparison, by the reply format and the argument type that it shows to
the windows it is in, and by what it does to the context. Lines that act alike, one by one, yield
the same descriptors (`descriptors_congr`).
-/

set_option autoImplicit false

namespace CliParity.Dispatcher

open Text

/-- The reply format that a line shows, in normal form. -/
def format? (line : List Char) : Option String :=
  replyFormat ((replyTemplate? line).map String.ofList)

/-- Two lines that act on every scan alike. -/
structure ActsAlike (a b : List Char) : Prop where
  comparison : Comparison.first? a = Comparison.first? b
  format : format? a = format? b
  argument : argumentType? a = argumentType? b
  enter : ∀ context : Context, context.enter a = context.enter b
  leave : ∀ context : Context, context.leave a = context.leave b

theorem ActsAlike.refl (a : List Char) : ActsAlike a a :=
  ⟨rfl, rfl, rfl, fun _ => rfl, fun _ => rfl⟩

variable {line : List Char} {ls ls' : List (List Char)}

/-! ## Replies -/

/-- A reply template is not empty. -/
theorem ne_nil_of_replyTemplate? {template : List Char} (h : replyTemplate? line = some template) :
    template ≠ [] := by
  obtain ⟨function, -, hf⟩ := List.exists_of_findSome?_eq_some h
  have := (Option.filter_eq_some_iff.1 hf).2
  simpa using this

theorem format?_eq_none_iff : format? line = none ↔ replyTemplate? line = none := by
  rw [format?]
  cases ht : replyTemplate? line with
  | none => simp [replyFormat]
  | some template =>
    have hne : String.ofList template ≠ "" := by simpa using ne_nil_of_replyTemplate? ht
    simp [replyFormat, hne]

/-- The format of the first template in a window is the first format shown there. -/
theorem replyFormat_window (window : List (List Char)) :
    replyFormat ((window.findSome? replyTemplate?).map String.ofList) =
      window.findSome? format? := by
  induction window with
  | nil => rfl
  | cons line window ih =>
    rw [List.findSome?_cons, List.findSome?_cons]
    cases ht : replyTemplate? line with
    | none => rw [format?_eq_none_iff.2 ht, ← ih]
    | some template =>
      have hf : format? line ≠ none := fun h => by simp [format?_eq_none_iff.1 h] at ht
      obtain ⟨format, hf⟩ := Option.ne_none_iff_exists'.1 hf
      rw [hf]
      rw [format?, ht] at hf
      exact hf

/-! ## Descriptors -/

theorem describe_congr (h : List.Forall₂ ActsAlike ls ls') (catalog : Catalog) (context : Context)
    (comparison : Comparison) :
    describe catalog context comparison ls = describe catalog context comparison ls' := by
  have hwindow : ls.filterMap argumentType? = ls'.filterMap argumentType? ∧
      ls.findSome? format? = ls'.findSome? format? := by
    induction h with
    | nil => exact ⟨rfl, rfl⟩
    | cons hl _ ih =>
      rw [List.filterMap_cons, List.filterMap_cons, List.findSome?_cons, List.findSome?_cons,
        hl.argument, hl.format, ih.1, ih.2]
      exact ⟨rfl, rfl⟩
  rw [describe, describe, replyFormat_window, replyFormat_window, hwindow.1, hwindow.2]

/-- Lines that act alike, one by one, yield the same descriptors. -/
theorem descriptors_congr (h : List.Forall₂ ActsAlike ls ls') (settings : Settings)
    (context : Context) : descriptors settings context ls = descriptors settings context ls' := by
  induction h generalizing context with
  | nil => rfl
  | @cons a b ls ls' hl hls ih =>
    have hwindow := List.forall₂_take settings.lookahead (List.Forall₂.cons hl hls)
    simp only [descriptors, hl.comparison, hl.enter, hl.leave, ih,
      describe_congr hwindow settings.catalog]

end CliParity.Dispatcher
