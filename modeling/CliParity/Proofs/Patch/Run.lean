import CliParity.Proofs.Patch.Readiness

/-!
# What a run of patches settles

A patch is settled in a text if it has no effect there. `Patch.step` is one patch of a run. If no
patch of a list disturbs one before it, a run of the list settles them all (`settled_applyAll`); a
run over a text in which all are settled reports nothing (`applyAll_of_settled`). It reports a patch
just where it is not settled in what the patches in front leave (`name_mem_applied_iff`).

For patches whose edits are `Regular` and `SwitchesOff` a step settles the patch itself
(`settled_step`), and it keeps another settled that its rewriting does not disturb
(`settled_step_of_undisturbed`).
-/

set_option autoImplicit false

namespace CliParity.Patch

open Text

/-- The patch makes no difference to the text. -/
def Settled (p : Patch) (s : List Char) : Prop := p.effect? s = none

/-- The text after a patch has been tried. -/
def step (p : Patch) (s : List Char) : List Char := (p.effect? s).getD s

/-! ## Runs -/

section
variable {p : Patch} {ps : List Patch} {s : List Char}

theorem step_of_settled (h : p.Settled s) : p.step s = s := by
  rw [step, show p.effect? s = none from h, Option.getD_none]

theorem applyAll_cons_of_settled (h : p.Settled s) : applyAll (p :: ps) s = applyAll ps s := by
  rw [applyAll, show p.effect? s = none from h]

theorem applied_cons_of_not_settled (h : ¬ p.Settled s) :
    (applyAll (p :: ps) s).applied = p.name :: (applyAll ps (p.step s)).applied := by
  obtain ⟨t, ht⟩ := Option.ne_none_iff_exists'.1 h
  rw [applyAll, step, ht, Option.getD_some]

theorem content_cons (p : Patch) (ps : List Patch) (s : List Char) :
    (applyAll (p :: ps) s).content = (applyAll ps (p.step s)).content := by
  rw [applyAll, step]
  split
  · rename_i t ht
    rw [ht, Option.getD_some]
  · rename_i hn
    rw [hn, Option.getD_none]

theorem content_append (ps qs : List Patch) (s : List Char) :
    (applyAll (ps ++ qs) s).content = (applyAll qs (applyAll ps s).content).content := by
  induction ps generalizing s with
  | nil => rfl
  | cons p ps ih => rw [List.cons_append, content_cons, content_cons, ih]

theorem applied_append (ps qs : List Patch) (s : List Char) : (applyAll (ps ++ qs) s).applied =
    (applyAll ps s).applied ++ (applyAll qs (applyAll ps s).content).applied := by
  induction ps generalizing s with
  | nil => rfl
  | cons p ps ih =>
    rw [List.cons_append, content_cons]
    by_cases hp : p.Settled s
    · rw [applyAll_cons_of_settled hp, applyAll_cons_of_settled hp, step_of_settled hp, ih]
    · rw [applied_cons_of_not_settled hp, applied_cons_of_not_settled hp, ih, List.cons_append]

theorem mem_names_of_mem_applied {name : String} (h : name ∈ (applyAll ps s).applied) :
    name ∈ ps.map Patch.name := by
  induction ps generalizing s with
  | nil => exact h
  | cons p ps ih =>
    by_cases hp : p.Settled s
    · rw [applyAll_cons_of_settled hp] at h
      exact List.mem_cons_of_mem p.name (ih h)
    · rw [applied_cons_of_not_settled hp, List.mem_cons] at h
      exact List.mem_cons.2 (h.imp_right ih)

/-- A run applies a patch whose name no other has exactly if it is not settled in what the patches
in front leave. -/
theorem name_mem_applied_iff {pre post : List Patch} (hpre : p.name ∉ pre.map Patch.name)
    (hpost : p.name ∉ post.map Patch.name) :
    p.name ∈ (applyAll (pre ++ p :: post) s).applied ↔ ¬ p.Settled (applyAll pre s).content := by
  rw [applied_append, List.mem_append, or_iff_right (mt mem_names_of_mem_applied hpre)]
  by_cases hp : p.Settled (applyAll pre s).content
  · rw [applyAll_cons_of_settled hp]
    simp only [hp, not_true, iff_false]
    exact mt mem_names_of_mem_applied hpost
  · rw [applied_cons_of_not_settled hp]
    simp [hp]

theorem content_singleton (p : Patch) (s : List Char) : (applyAll [p] s).content = p.step s := by
  rw [content_cons, applyAll]

/-- What no step of a run destroys, the run keeps. -/
theorem applyAll_keeps {P : List Char → Prop} (hp : ∀ p ∈ ps, ∀ t, P t → P (p.step t)) (h : P s) :
    P (applyAll ps s).content := by
  induction ps generalizing s with
  | nil => exact h
  | cons p ps ih =>
    rw [content_cons]
    exact ih (fun q hq => hp q (List.mem_cons_of_mem p hq)) (hp p List.mem_cons_self s h)

/-- A run settles its patches, provided that each step settles its own patch and keeps settled
those of the steps before it. -/
theorem settled_applyAll (hself : ∀ p ∈ ps, ∀ t, p.Settled (p.step t))
    (hkeep : ps.Pairwise fun p q => ∀ t, p.Settled t → p.Settled (q.step t)) :
    ∀ p ∈ ps, p.Settled (applyAll ps s).content := by
  induction ps generalizing s with
  | nil => exact fun p hp => absurd hp List.not_mem_nil
  | cons q ps ih =>
    obtain ⟨hq, hps⟩ := List.pairwise_cons.1 hkeep
    rw [content_cons]
    intro p hp
    rcases List.mem_cons.1 hp with rfl | hp
    · exact applyAll_keeps hq (hself p List.mem_cons_self s)
    · exact ih (fun r hr => hself r (List.mem_cons_of_mem q hr)) hps p hp

theorem applyAll_of_settled (h : ∀ p ∈ ps, p.Settled s) : applyAll ps s = ⟨s, []⟩ := by
  induction ps with
  | nil => rfl
  | cons p ps ih =>
    rw [applyAll_cons_of_settled (h p List.mem_cons_self)]
    exact ih fun q hq => h q (List.mem_cons_of_mem p hq)

end

/-! ## Steps -/

section
variable {p q : Patch} {s : List Char}

theorem settled_iff (hp : p.edit.Regular) : p.Settled s ↔ ¬ p.edit.Ready s :=
  effect?_eq_none_iff hp

theorem step_of_result? {t : List Char} (hp : p.edit.Regular) (hs : p.edit.Ready s)
    (ht : p.edit.result? s = some t) : p.step s = t := by
  obtain ⟨t', ht', -, hl, -⟩ := Edit.result?_of_ready hp hs
  obtain rfl : t' = t := Option.some.inj (ht'.symm.trans ht)
  have hne : t' ≠ s := fun he => absurd (congrArg List.length he) (Nat.ne_of_gt hl)
  rw [step, effect?, ht, Option.filter_some, if_pos (by simpa using hne), Option.getD_some]

theorem rewrites_step (hp : p.edit.Regular) (s : List Char) :
    Rewrites p.edit.written.1 p.edit.written.2 s (p.step s) := by
  rw [step]
  cases h : p.effect? s with
  | none => exact .refl s
  | some t => exact (effect?_spec hp h).2.1

theorem settled_step (hp : p.edit.Regular) (ho : p.edit.SwitchesOff) (s : List Char) :
    p.Settled (p.step s) := by
  rw [step]
  cases h : p.effect? s with
  | none => exact h
  | some t =>
    rw [effect?, Option.filter_eq_some_iff] at h
    by_cases hs : p.edit.Ready s
    · exact (settled_iff hp).2 (Edit.not_ready_of_result? hp ho hs h.1)
    · exact absurd (Edit.result?_of_not_ready hs h.1) (by simpa using h.2)

theorem settled_step_of_undisturbed (hp : p.edit.Regular) (hq : q.edit.Regular)
    (hu : p.edit.Undisturbed q.edit.written.1 q.edit.written.2) (h : p.Settled s) :
    p.Settled (q.step s) := by
  rw [settled_iff hp] at h ⊢
  exact fun hr => h (Edit.ready_of_rewrites hp hu (rewrites_step hq s) hr)

end

end CliParity.Patch
