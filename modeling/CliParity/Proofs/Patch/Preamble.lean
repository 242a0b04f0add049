import CliParity.Proofs.Patch.References
import CliParity.Proofs.Patch.Report
import CliParity.Proofs.Text.InLine

/-!
# Where the module of processes comes to be imported

The imports of a file are its `Preamble`: the lines in front of the first that assigns the logger.
The first patch looks for an import of the module of times there, with the line feed behind it. But
the line feed in front of the assignment belongs to the boundary, so an import is found only if
another line of the preamble follows it (`ready_imports_iff`). One right in front of the assignment
is missed (`subprocess_imported_iff`, `import_missed`).
-/

set_option autoImplicit false

namespace CliParity.Patch

open Snippet Text

variable {s : List Char} {front : List (List Char)}

/-- The import of the module of times, without the line feed behind it. -/
def timeLine : List Char := "import time".toList

/-- What the line begins with that ends the imports. -/
def loggerStart : List Char := "logger = ".toList

theorem timeImport_eq : timeImport = timeLine ++ ['\n'] := by decide

theorem loggerLine_eq : loggerLine = '\n' :: loggerStart := by decide

/-- The lines in front of the first that assigns the logger. -/
structure Preamble (s : List Char) (front : List (List Char)) : Prop where
  ends : ∃ line back, lines s = front ++ line :: back ∧ loggerStart <+: line
  first : ∀ l ∈ front, ¬ loggerStart <+: l

/-- The first boundary is behind the preamble. -/
theorem Preamble.exists_cutFirst? (h : Preamble s front) (hne : front ≠ []) :
    ∃ head tail, cutFirst? loggerLine s = some (head, tail) ∧ lines head = front := by
  obtain ⟨line, back, hlines, hline⟩ := h.ends
  obtain ⟨head, below, rfl, hhead, hbelow⟩ := exists_of_lines_eq_append hlines hne (by simp)
  obtain ⟨tail, rfl⟩ := hline.trans (prefix_of_lines_eq_cons hbelow)
  have habsent : ¬ loggerLine <:+: head := by
    intro hi
    rw [loggerLine_eq] at hi
    obtain ⟨l, hl, hstart⟩ := exists_line_of_newline_cons_infix (by decide) hi
    exact h.first l (hhead ▸ hl) hstart
  obtain ⟨hq, hqq⟩ := regular_imports.landmark loggerLine rfl
  refine ⟨head, tail, (cutFirst?_eq_some_iff hq hqq).2 ⟨?_, habsent⟩, hhead⟩
  simp [loggerLine_eq]

/-- The first patch needs an import of the module of times with a line of the preamble behind it. -/
theorem ready_imports_iff (h : Preamble s front) (hne : front ≠ []) : imports.edit.Ready s ↔
    ¬ subprocessMarker <:+: s ∧ ∃ l ∈ front.dropLast, timeLine <:+ l := by
  obtain ⟨head, tail, hcut, rfl⟩ := h.exists_cutFirst? hne
  rw [← concat_newline_infix_iff (by decide), ← timeImport_eq]
  refine and_congr_right fun _ => ⟨?_, fun hi => ⟨head, tail, hcut, hi⟩⟩
  rintro ⟨head', tail', hcut', hi⟩
  obtain ⟨rfl, -⟩ := Prod.mk.inj (Option.some.inj (hcut.symm.trans hcut'))
  exact hi

/-- **Where the module of processes is imported** behind a run, in a file whose preamble imports the
module of times: where it was imported, or where a line that ends in that import is in the preamble
and not the last line of it. -/
theorem subprocess_imported_iff (h : Preamble s front) (ht : timeLine ∈ front) :
    (subprocessMarker <:+: (applyAll catalogue s).content ↔
      subprocessMarker <:+: s ∨ ∃ l ∈ front.dropLast, timeLine <:+ l) ∧
    (timeLine ∈ front.dropLast → subprocessMarker <:+: (applyAll catalogue s).content) := by
  have hr : ⟨reboot, imports, subprocessMarker⟩ ∈ references := by simp [references]
  have happlied : imports.name ∈ (applyAll catalogue s).applied ↔ imports.edit.Ready s := by
    have hcatalogue : catalogue = [] ++ imports :: (inner ++ [statsMethods]) := catalogue_eq
    rw [mem_applied_catalogue_iff hcatalogue, settled_iff regular_imports, not_not]
    exact Iff.rfl
  have hcontent : subprocessMarker <:+: (applyAll catalogue s).content ↔
      subprocessMarker <:+: s ∨ ∃ l ∈ front.dropLast, timeLine <:+ l := by
    rw [infix_content_iff regular_catalogue (treats_references _ hr), happlied,
      ready_imports_iff h (List.ne_nil_of_mem ht)]
    tauto
  exact ⟨hcontent, fun hl => hcontent.2 (.inr ⟨timeLine, hl, List.suffix_refl timeLine⟩)⟩

/-- An import right in front of the assignment is missed. -/
theorem import_missed :
    Preamble "import time\nlogger = 1\n".toList [timeLine] ∧ timeLine ∈ [timeLine] ∧
      ¬ subprocessMarker <:+: (applyAll catalogue "import time\nlogger = 1\n".toList).content := by
  have hlines : lines "import time\nlogger = 1\n".toList =
      [timeLine] ++ "logger = 1".toList :: [[]] := by decide
  have hp : Preamble "import time\nlogger = 1\n".toList [timeLine] :=
    ⟨⟨_, _, hlines, by decide⟩, by decide⟩
  have ht : timeLine ∈ [timeLine] := List.mem_singleton_self timeLine
  have habsent : ¬ subprocessMarker <:+: "import time\nlogger = 1\n".toList := by
    rw [← occursIn_iff]
    decide
  refine ⟨hp, ht, fun hi => ?_⟩
  obtain ⟨hiff, -⟩ := subprocess_imported_iff hp ht
  exact habsent ((hiff.1 hi).resolve_right (by simp))

end CliParity.Patch
