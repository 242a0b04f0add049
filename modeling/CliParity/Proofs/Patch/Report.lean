import CliParity.Proofs.Patch.Masking
import CliParity.Proofs.Patch.Target
import Mathlib.Data.List.Nodup

/-!
# What a run reports

A run names patches of its list, in their order (`applied_sublist`). Each patch that it names has
made the text longer (`length_lt_step`), and no later one can take that back: the text has grown by
one character at least for each name (`length_add_applied_le`). So nothing is reported only where
the text is the one that was given (`applied_eq_nil_iff`), and a file is written only where its text
becomes another (`run_patchFile`).
-/

set_option autoImplicit false

namespace CliParity.Patch

open Snippet

variable {p : Patch} {ps pre post : List Patch} {s : List Char}

theorem applied_sublist (ps : List Patch) (s : List Char) :
    (applyAll ps s).applied.Sublist (ps.map Patch.name) := by
  induction ps generalizing s with
  | nil => exact List.Sublist.refl _
  | cons p ps ih =>
    rw [List.map_cons]
    by_cases hp : p.Settled s
    · rw [applyAll_cons_of_settled hp]
      exact (ih s).cons p.name
    · rw [applied_cons_of_not_settled hp]
      exact (ih (p.step s)).cons_cons p.name

/-! ## Growth -/

theorem length_lt_step (hp : p.edit.Regular) (h : ¬ p.Settled s) :
    s.length < (p.step s).length := by
  obtain ⟨t, ht⟩ := Option.ne_none_iff_exists'.1 h
  obtain ⟨-, -, hlt, -⟩ := effect?_spec hp ht
  rwa [step, ht, Option.getD_some]

/-- Each patch that is reported has added to the text. -/
theorem length_add_applied_le (hps : ∀ p ∈ ps, p.edit.Regular) (s : List Char) :
    s.length + (applyAll ps s).applied.length ≤ (applyAll ps s).content.length := by
  induction ps generalizing s with
  | nil => exact Nat.le_refl _
  | cons p ps ih =>
    have hrest := ih fun q hq => hps q (List.mem_cons_of_mem p hq)
    by_cases hp : p.Settled s
    · rw [applyAll_cons_of_settled hp]
      exact hrest s
    · have hlt := length_lt_step (hps p List.mem_cons_self) hp
      have hle := hrest (p.step s)
      rw [applied_cons_of_not_settled hp, content_cons, List.length_cons]
      omega

theorem changed_eq_false_iff : (applyAll ps s).changed = false ↔ (applyAll ps s).applied = [] := by
  simp [Outcome.changed]

theorem content_of_applied_eq_nil (h : (applyAll ps s).applied = []) :
    (applyAll ps s).content = s := by
  induction ps with
  | nil => rfl
  | cons p ps ih =>
    by_cases hp : p.Settled s
    · rw [applyAll_cons_of_settled hp] at h ⊢
      exact ih h
    · rw [applied_cons_of_not_settled hp] at h
      cases h

/-- Nothing is reported exactly if the text stays. -/
theorem applied_eq_nil_iff (hps : ∀ p ∈ ps, p.edit.Regular) :
    (applyAll ps s).applied = [] ↔ (applyAll ps s).content = s := by
  refine ⟨content_of_applied_eq_nil, fun h => ?_⟩
  have hle := length_add_applied_le hps s
  rw [h] at hle
  exact List.length_eq_zero_iff.1 (by omega)

/-! ## The catalogue -/

theorem nodup_names : (catalogue.map Patch.name).Nodup := by decide

/-- A patch is reported exactly if it is not settled in what those in front of it leave. -/
theorem mem_applied_catalogue_iff (h : catalogue = pre ++ p :: post) :
    p.name ∈ (applyAll catalogue s).applied ↔ ¬ p.Settled (applyAll pre s).content := by
  have hn := nodup_names
  rw [h, List.map_append, List.map_cons, List.nodup_middle, List.nodup_cons, List.mem_append,
    not_or] at hn
  rw [h]
  exact name_mem_applied_iff hn.1.1 hn.1.2

/-- A file is written over if a patch is reported, and kept if none is. -/
theorem run_patchFile {t : Tree} {path : Path} (hread : t.readText path = .ok (String.ofList s)) :
    ((applyAll catalogue s).applied = [] →
      (patchFile path : StateM Tree _).run t = (.ok .unchanged, t)) ∧
    ((applyAll catalogue s).applied ≠ [] → ∃ t',
      t.write path (String.ofList (applyAll catalogue s).content).toUTF8 = .ok t' ∧
      (patchFile path : StateM Tree _).run t =
        (.ok (.patched (applyAll catalogue s).applied), t')) := by
  have htext {text : String} (h : targetText t path = .ok text) : text.toList = s := by
    cases (targetText_eq_ok_iff.1 h).symm.trans hread
    exact String.toList_ofList
  have hrun := patches_run path t
  generalize (patchFile path : StateM Tree _).run t = done at hrun ⊢
  cases hrun with
  | failed h => simp [targetText_eq_ok_iff.2 hread] at h
  | kept h ha =>
    rw [htext h] at ha
    exact ⟨fun _ => rfl, fun hne => absurd ha hne⟩
  | wrote h ha hw =>
    rw [htext h] at ha hw ⊢
    exact ⟨fun he => absurd he ha, fun _ => ⟨_, hw, rfl⟩⟩

/-- **The report of a run is truthful.** It names patches of the catalogue once each, in their
order. Those that it names have made the text longer where it was their turn, and the others have
left it. So it says that the text was changed exactly if the text is another one, and a file is
written over exactly then. -/
theorem catalogue_report_truthful (s : List Char) :
    ((applyAll catalogue s).applied.Sublist (catalogue.map Patch.name) ∧
      (applyAll catalogue s).applied.Nodup) ∧
    (∀ pre p post, catalogue = pre ++ p :: post →
      (p.name ∈ (applyAll catalogue s).applied →
        (applyAll pre s).content.length < (applyAll (pre ++ [p]) s).content.length) ∧
      (p.name ∉ (applyAll catalogue s).applied →
        (applyAll (pre ++ [p]) s).content = (applyAll pre s).content)) ∧
    ((applyAll catalogue s).changed = true ↔ (applyAll catalogue s).content ≠ s) ∧
    ∀ (t : Tree) (path : Path), t.readText path = .ok (String.ofList s) →
      ((applyAll catalogue s).content = s →
        (patchFile path : StateM Tree _).run t = (.ok .unchanged, t)) ∧
      ((applyAll catalogue s).content ≠ s → ∃ t',
        t.write path (String.ofList (applyAll catalogue s).content).toUTF8 = .ok t' ∧
        (patchFile path : StateM Tree _).run t =
          (.ok (.patched (applyAll catalogue s).applied), t')) := by
  have hsub := applied_sublist catalogue s
  have hnil := applied_eq_nil_iff (s := s) regular_catalogue
  refine ⟨⟨hsub, nodup_names.sublist hsub⟩, ?_, ?_, ?_⟩
  · intro pre p post h
    have hp : p ∈ catalogue := by simp [h]
    rw [mem_applied_catalogue_iff h, content_append, content_singleton, not_not]
    exact ⟨length_lt_step (regular_catalogue p hp), step_of_settled⟩
  · rw [Ne, ← hnil, ← changed_eq_false_iff, Bool.not_eq_false]
  · intro t path hread
    rw [Ne, ← hnil]
    exact run_patchFile hread

/-- A file that holds the method that refuses to reboot. -/
def refusingTree : Tree := Tree.empty.put ["cli.py"] (.file (String.ofList rebootStub).toUTF8)

/-- The reboot is reported, the text is longer, and the file is written over. -/
theorem reboot_reported :
    catalogue = [imports, tempRadioState] ++ reboot :: catalogue.drop 3 ∧
      reboot.name ∈ (applyAll catalogue rebootStub).applied ∧
      (applyAll [imports, tempRadioState] rebootStub).content.length <
        (applyAll ([imports, tempRadioState] ++ [reboot]) rebootStub).content.length ∧
      refusingTree.readText ⟨"cli.py"⟩ = .ok (String.ofList rebootStub) ∧
      ∃ t', refusingTree.write ⟨"cli.py"⟩
          (String.ofList (applyAll catalogue rebootStub).content).toUTF8 = .ok t' ∧
        (patchFile ⟨"cli.py"⟩ : StateM Tree _).run refusingTree =
          (.ok (.patched (applyAll catalogue rebootStub).applied), t') := by
  have hcatalogue : catalogue = [imports, tempRadioState] ++ reboot :: catalogue.drop 3 := rfl
  have hp : reboot ∈ catalogue := by simp [catalogue]
  have hready : ¬ reboot.Settled rebootStub := by
    rw [settled_iff (regular_catalogue reboot hp), not_not]
    exact List.infix_rfl
  have happlied : reboot.name ∈ (applyAll catalogue rebootStub).applied :=
    name_mem_applied settled_of_settled_step hp hready
  have hread : refusingTree.readText ⟨"cli.py"⟩ = .ok (String.ofList rebootStub) :=
    Tree.readText_of_find rfl
  obtain ⟨-, hstep, hchanged, hfile⟩ := catalogue_report_truthful rebootStub
  have hne : (applyAll catalogue rebootStub).content ≠ rebootStub := by
    rw [← hchanged, Outcome.changed, Bool.not_eq_true', List.isEmpty_eq_false_iff]
    exact List.ne_nil_of_mem happlied
  exact ⟨hcatalogue, happlied, (hstep _ _ _ hcatalogue).1 happlied, hread,
    (hfile refusingTree ⟨"cli.py"⟩ hread).2 hne⟩

end CliParity.Patch
