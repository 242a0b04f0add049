import CliParity.Patch.Target
import CliParity.Proofs.Files.Changes

/-!
# Patching a file and telling what is pending

Both start with the text of the file, and both fail where there is none (`targetText`). What a run
of `patchFile` does is said once, by `Patches`: it fails, or keeps a file that lacks no patch, or
writes over one that does. So patching reports what was pending (`result_patchFile`), and it changes
nothing but the file (`onlyAt_of_patched`), or nothing at all (`tree_patchFile_of_ne`).
-/

set_option autoImplicit false

namespace CliParity.Patch

open CliParity.Tree

variable {t : Tree} {p : Path} {text : String} {applied : List String} {e : TargetError}

/-! ## The text of the file -/

/-- The text of the file to be patched, or why there is none. -/
def targetText (t : Tree) (p : Path) : Except TargetError String :=
  if t.isPresent p then (t.readText p).mapError (.unreadable p) else .error (.notFound p)

theorem targetText_eq_ok_iff : targetText t p = .ok text ↔ t.readText p = .ok text := by
  unfold targetText
  cases hr : t.readText p with
  | error cause => split <;> simp [Except.mapError]
  | ok text' =>
    obtain ⟨content, hf⟩ := find_of_readText hr
    have hp : t.isPresent p = true := by rw [isPresent, hf]
    rw [if_pos hp, Except.mapError, Except.ok.injEq, Except.ok.injEq]

theorem targetText_eq_error_iff : targetText t p = .error e ↔
    (t.isPresent p = false ∧ e = .notFound p) ∨
    (t.isPresent p = true ∧ ∃ cause, t.readText p = .error cause ∧ e = .unreadable p cause) := by
  unfold targetText
  cases t.isPresent p with
  | false => simp [eq_comm]
  | true => cases t.readText p <;> simp [Except.mapError, eq_comm]

theorem run_readTarget (p : Path) (t : Tree) :
    (readTarget p : StateM Tree _).run t = (targetText t p, t) := by
  unfold readTarget targetText
  rw [run_bind, run_isPresent]
  cases t.isPresent p with
  | false => rfl
  | true =>
    rw [if_pos rfl, if_pos rfl, run_bind, run_readText]
    cases t.readText p <;> rfl

theorem run_pending (p : Path) (t : Tree) :
    (pending p : StateM Tree _).run t =
      ((targetText t p).map fun text => (applyAll catalogue text.toList).applied, t) := by
  unfold pending
  rw [run_bind, run_readTarget]
  cases targetText t p <;> rfl

/-! ## Runs -/

/-- What patching does: it fails, or keeps a file that lacks no patch, or writes over one that
does. -/
inductive Patches (p : Path) (t : Tree) : Except TargetError Report × Tree → Prop
  | failed {e : TargetError} (h : targetText t p = .error e) : Patches p t (.error e, t)
  | kept {text : String} (h : targetText t p = .ok text)
      (ha : (applyAll catalogue text.toList).applied = []) : Patches p t (.ok .unchanged, t)
  | wrote {text : String} {t' : Tree} (h : targetText t p = .ok text)
      (ha : (applyAll catalogue text.toList).applied ≠ [])
      (hw : t.write p (String.ofList (applyAll catalogue text.toList).content).toUTF8 = .ok t') :
      Patches p t (.ok (.patched (applyAll catalogue text.toList).applied), t')

/-- The write does not fail, since the file was read. -/
theorem patches_run (p : Path) (t : Tree) :
    Patches p t ((patchFile p : StateM Tree _).run t) := by
  unfold patchFile
  rw [run_bind, run_readTarget]
  cases h : targetText t p with
  | error e => exact .failed h
  | ok text =>
    by_cases ha : (applyAll catalogue text.toList).applied = []
    · have hc : (applyAll catalogue text.toList).changed = false := by simp [Outcome.changed, ha]
      simp only [hc]
      exact .kept h ha
    · have hc : (applyAll catalogue text.toList).changed = true := by simp [Outcome.changed, ha]
      obtain ⟨content, hf⟩ := find_of_readText (targetText_eq_ok_iff.1 h)
      obtain ⟨here, -, -, hw⟩ := write_of_find hf
        (String.ofList (applyAll catalogue text.toList).content).toUTF8
      simp only [hc, if_true]
      rw [run_bind, run_writeText, writeText_eq_ok_iff.2 hw]
      exact .wrote h ha hw

/-! ## Reports -/

/-- What a run reports if it applies some patches. -/
def Report.ofApplied : List String → Report
  | [] => .unchanged
  | applied => .patched applied

theorem Report.ofApplied_of_ne_nil (h : applied ≠ []) : ofApplied applied = .patched applied := by
  cases applied with
  | nil => exact absurd rfl h
  | cons name rest => rfl

theorem Report.ofApplied_eq_unchanged_iff : ofApplied applied = .unchanged ↔ applied = [] := by
  cases applied <;> simp [ofApplied]

theorem Report.ofApplied_eq_patched_iff {names : List String} :
    ofApplied applied = .patched names ↔ applied = names ∧ names ≠ [] := by
  cases applied with
  | nil =>
    simp only [ofApplied, reduceCtorEq, false_iff]
    rintro ⟨rfl, hne⟩
    exact hne rfl
  | cons name rest =>
    simp only [ofApplied, Report.patched.injEq]
    constructor
    · rintro rfl
      exact ⟨rfl, List.cons_ne_nil name rest⟩
    · exact And.left

/-- Patching reports what was pending. -/
theorem result_patchFile (p : Path) (t : Tree) :
    ((patchFile p : StateM Tree _).run t).1 =
      ((pending p : StateM Tree _).run t).1.map Report.ofApplied := by
  have hrun := patches_run p t
  rw [run_pending]
  generalize (patchFile p : StateM Tree _).run t = done at hrun ⊢
  cases hrun with
  | failed h => rw [h, Except.map, Except.map]
  | kept h ha => rw [h, Except.map, Except.map, ha, Report.ofApplied]
  | wrote h ha hw => rw [h, Except.map, Except.map, Report.ofApplied_of_ne_nil ha]

theorem patchFile_eq_patched_iff (p : Path) (t : Tree) (applied : List String) :
    ((patchFile p : StateM Tree _).run t).1 = .ok (.patched applied) ↔
      ((pending p : StateM Tree _).run t).1 = .ok applied ∧ applied ≠ [] := by
  rw [result_patchFile]
  cases ((pending p : StateM Tree _).run t).1 with
  | error e => simp [Except.map]
  | ok names => simp [Except.map, Report.ofApplied_eq_patched_iff]

theorem patchFile_eq_unchanged_iff (p : Path) (t : Tree) :
    ((patchFile p : StateM Tree _).run t).1 = .ok .unchanged ↔
      ((pending p : StateM Tree _).run t).1 = .ok [] := by
  rw [result_patchFile]
  cases ((pending p : StateM Tree _).run t).1 with
  | error e => simp [Except.map]
  | ok names => simp [Except.map, Report.ofApplied_eq_unchanged_iff]

theorem patchFile_eq_error_iff (p : Path) (t : Tree) (e : TargetError) :
    ((patchFile p : StateM Tree _).run t).1 = .error e ↔
      ((pending p : StateM Tree _).run t).1 = .error e := by
  rw [result_patchFile]
  cases ((pending p : StateM Tree _).run t).1 <;> simp [Except.map]

theorem pending_eq_ok_iff (p : Path) (t : Tree) (applied : List String) :
    ((pending p : StateM Tree _).run t).1 = .ok applied ↔
      ∃ text, t.readText p = .ok text ∧ (applyAll catalogue text.toList).applied = applied := by
  rw [run_pending]
  simp only [← targetText_eq_ok_iff]
  cases targetText t p <;> simp [Except.map]

theorem pending_eq_error_iff (p : Path) (t : Tree) (e : TargetError) :
    ((pending p : StateM Tree _).run t).1 = .error e ↔
      (t.isPresent p = false ∧ e = .notFound p) ∨
      (t.isPresent p = true ∧ ∃ cause, t.readText p = .error cause ∧ e = .unreadable p cause) := by
  rw [← targetText_eq_error_iff, run_pending]
  cases targetText t p <;> simp [Except.map]

/-! ## Trees -/

/-- Where patches are applied, the file holds the patched text, and nothing else changes. -/
theorem onlyAt_of_patched
    (h : ((patchFile p : StateM Tree _).run t).1 = .ok (.patched applied)) :
    ∃ text, t.readText p = .ok text ∧
      ((patchFile p : StateM Tree _).run t).2.readText p =
        .ok (String.ofList (applyAll catalogue text.toList).content) ∧
      OnlyAt p t ((patchFile p : StateM Tree _).run t).2 := by
  have hrun := patches_run p t
  generalize (patchFile p : StateM Tree _).run t = done at h hrun ⊢
  cases hrun with
  | failed _ => cases h
  | kept _ _ => cases h
  | @wrote text t' ht ha hw =>
    have hr := targetText_eq_ok_iff.1 ht
    obtain ⟨content, hf⟩ := find_of_readText hr
    exact ⟨text, hr, readText_of_find (find_of_write hw), onlyAt_of_write hf hw⟩

/-- Where none is, the tree stays as it is. -/
theorem tree_patchFile_of_ne
    (h : ∀ applied, ((patchFile p : StateM Tree _).run t).1 ≠ .ok (.patched applied)) :
    ((patchFile p : StateM Tree _).run t).2 = t := by
  have hrun := patches_run p t
  generalize (patchFile p : StateM Tree _).run t = done at h hrun ⊢
  cases hrun with
  | failed _ => rfl
  | kept _ _ => rfl
  | wrote _ _ _ => exact absurd rfl (h _)

end CliParity.Patch
