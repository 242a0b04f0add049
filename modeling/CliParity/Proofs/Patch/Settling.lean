import CliParity.Proofs.Patch.Compatibility

/-!
# What a run of the catalogue settles

No patch of the catalogue disturbs an earlier one but the last the first (`pairwise_rest`). So a run
settles all of them but perhaps the first (`settled_rest`), and the next run does nothing or applies
the first (`applyAll_of_settled_rest`).
-/

set_option autoImplicit false

namespace CliParity.Patch

/-- The patches after the first. -/
def rest : List Patch := inner ++ [statsMethods]

variable {s : List Char}

theorem mem_catalogue_of_mem_rest {p : Patch} (h : p ∈ rest) : p ∈ catalogue :=
  List.mem_cons_of_mem imports h

theorem settled_step_self {p : Patch} (hp : p ∈ catalogue) (s : List Char) :
    p.Settled (p.step s) :=
  settled_step (regular_catalogue p hp) (switchesOff_catalogue p hp) s

/-- No patch disturbs one before it but the first. -/
theorem pairwise_rest : rest.Pairwise fun p q => ∀ t, p.Settled t → p.Settled (q.step t) := by
  have hu : rest.Pairwise fun p q => p.edit.Undisturbed q.edit.written.1 q.edit.written.2 :=
    compatible_catalogue.undisturbed
  refine hu.imp_of_mem fun {p q} hp hq h t => ?_
  exact settled_step_of_undisturbed (regular_catalogue p (mem_catalogue_of_mem_rest hp))
    (regular_catalogue q (mem_catalogue_of_mem_rest hq)) h

/-- A run settles all patches but perhaps the first. -/
theorem settled_rest (s : List Char) : ∀ p ∈ rest, p.Settled (applyAll catalogue s).content := by
  rw [show catalogue = imports :: rest from rfl, content_cons]
  refine settled_applyAll (fun p hp => ?_) pairwise_rest
  exact settled_step_self (mem_catalogue_of_mem_rest hp)

/-- The first patch keeps the others settled. -/
theorem settled_rest_step_imports (h : ∀ p ∈ rest, p.Settled s) :
    ∀ p ∈ rest, p.Settled (imports.step s) := fun p hp =>
  settled_step_of_undisturbed (regular_catalogue p (mem_catalogue_of_mem_rest hp)) regular_imports
    (compatible_catalogue.undisturbed_by_first p hp) (h p hp)

/-- A run over a text in which at most the first patch is not settled. -/
theorem applyAll_of_settled_rest (h : ∀ p ∈ rest, p.Settled s) :
    (imports.Settled s ∧ applyAll catalogue s = ⟨s, []⟩) ∨
      (¬ imports.Settled s ∧ applyAll catalogue s = ⟨imports.step s, ["imports"]⟩) := by
  rw [show catalogue = imports :: rest from rfl]
  by_cases hi : imports.Settled s
  · refine .inl ⟨hi, applyAll_of_settled fun p hp => ?_⟩
    exact (List.mem_cons.1 hp).elim (fun he => he ▸ hi) (h p)
  · have hr := applyAll_of_settled (settled_rest_step_imports h)
    have hc : (applyAll (imports :: rest) s).content = imports.step s := by rw [content_cons, hr]
    have ha : (applyAll (imports :: rest) s).applied = ["imports"] := by
      rw [applied_cons_of_not_settled hi, hr]
      rfl
    refine .inr ⟨hi, ?_⟩
    rw [← hc, ← ha]

/-! ## Runs one after the other -/

/-- The outcome of the last of `n` runs, each over the text that the one before leaves. -/
def nthRun : Nat → List Char → Outcome
  | 0, s => ⟨s, []⟩
  | n + 1, s => applyAll catalogue (nthRun n s).content

end CliParity.Patch
