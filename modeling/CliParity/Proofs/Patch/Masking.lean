import CliParity.Proofs.Patch.Compatibility

/-!
# No patch masks a later one

A run tries each patch on what the ones before have left. If none of those steps settles a patch
that was not settled, the run applies it (`name_mem_applied`). In the catalogue no step does
(`settled_of_settled_step`): a rewriting reads the same backwards, so a step keeps a patch ready
where undoing the step would not disturb it (`settled_of_settled_step_of_undisturbed`).

The converse is not so: the state of the temporary radio parameters ends in the letter that the
route of the version command begins with, and may complete a route whose first letter was missing.
-/

set_option autoImplicit false

namespace CliParity.Patch

open Snippet Text

variable {p q : Patch} {ps : List Patch} {s : List Char}

theorem not_settled_iff : ¬ p.Settled s ↔ ∃ t, p.edit.result? s = some t ∧ t ≠ s := by
  rw [Settled, effect?, Option.filter_eq_none_iff]
  simp

/-! ## Runs -/

/-- What a run applies from its second patch on. -/
theorem mem_applied_cons {name : String} (h : name ∈ (applyAll ps (q.step s)).applied) :
    name ∈ (applyAll (q :: ps) s).applied := by
  by_cases hq : q.Settled s
  · rwa [applyAll_cons_of_settled hq, ← step_of_settled hq]
  · rw [applied_cons_of_not_settled hq]
    exact List.mem_cons_of_mem q.name h

/-- A run applies its patches that are not settled at the start, provided that no step settles a
later patch. -/
theorem name_mem_applied (h : ps.Pairwise fun q p => ∀ t, p.Settled (q.step t) → p.Settled t)
    (hp : p ∈ ps) (hs : ¬ p.Settled s) : p.name ∈ (applyAll ps s).applied := by
  induction ps generalizing s with
  | nil => exact absurd hp List.not_mem_nil
  | cons q ps ih =>
    obtain ⟨hq, hps⟩ := List.pairwise_cons.1 h
    rcases List.mem_cons.1 hp with rfl | hp
    · rw [applied_cons_of_not_settled hs]
      exact List.mem_cons_self
    · exact mem_applied_cons (ih hps hp (mt (hq p hp s) hs))

/-! ## Steps -/

theorem settled_of_settled_step_of_undisturbed {old new : List Char} (hp : p.edit.Regular)
    (hw : Rewrites old new s (q.step s)) (hu : p.edit.Undisturbed new old)
    (h : p.Settled (q.step s)) : p.Settled s := by
  rw [settled_iff hp] at h ⊢
  exact fun hr => h (Edit.ready_of_rewrites hp hu hw.symm hr)

theorem settled_of_settled_step :
    catalogue.Pairwise fun q p => ∀ t, p.Settled (q.step t) → p.Settled t := by
  have regular {p : Patch} (hp : p ∈ imports :: inner) : p.edit.Regular :=
    regular_catalogue p (List.mem_append_left [statsMethods] hp)
  change (imports :: inner ++ [statsMethods]).Pairwise _
  refine List.pairwise_append.2
    ⟨compatible_catalogue.undisturbed_undoing.imp_of_mem fun hq hp hu t => ?_,
      List.pairwise_singleton _ _, fun q hq p hp t => ?_⟩
  · exact settled_of_settled_step_of_undisturbed (regular hp) (rewrites_step (regular hq) t) hu
  · obtain rfl := List.mem_singleton.1 hp
    exact settled_of_settled_step_of_undisturbed regular_statsMethods
      (Edit.rewrites_narrowed (rewrites_step (regular hq) t))
      (compatible_catalogue.last_undisturbed_undoing q hq)

/-! ## The catalogue -/

/-- **No patch masks a later one.** A run of the catalogue reports each patch that alone would
change the text, and nothing just if no patch alone would. -/
theorem applyAll_catalogue_unmasked (s : List Char) :
    (∀ p ∈ catalogue, ∀ t, p.edit.result? s = some t → t ≠ s →
        p.name ∈ (applyAll catalogue s).applied) ∧
      ((applyAll catalogue s).applied = [] ↔
        ∀ p ∈ catalogue, ∀ t, p.edit.result? s = some t → t = s) := by
  have hall (p : Patch) (hp : p ∈ catalogue) (hs : ¬ p.Settled s) :
      p.name ∈ (applyAll catalogue s).applied := name_mem_applied settled_of_settled_step hp hs
  refine ⟨fun p hp t ht hne => hall p hp (not_settled_iff.2 ⟨t, ht, hne⟩), ?_, ?_⟩
  · intro hn p hp t ht
    by_contra hne
    have hm := hall p hp (not_settled_iff.2 ⟨t, ht, hne⟩)
    exact absurd (hn ▸ hm) List.not_mem_nil
  · intro hn
    have hs : ∀ p ∈ catalogue, p.Settled s := fun p hp => by
      by_contra h
      obtain ⟨t, ht, hne⟩ := not_settled_iff.1 h
      exact hne (hn p hp t ht)
    rw [applyAll_of_settled hs]

/-- A route of all statistics commands in front of the log command's last statement. -/
def routingAndLog : List Char := statsRoutingStub ++ '\n' :: unknownLogReturn ++ ['\n']

theorem ready_routingAndLog : statsMethods.edit.Ready routingAndLog := by
  obtain ⟨hq, hqq⟩ := regular_statsMethods.landmark unknownLogReturn rfl
  have hm : ¬ statsMarker <:+: routingAndLog := by
    rw [← occursIn_iff]
    unfold routingAndLog statsMarker unknownLogReturn
    repeat rewrite [String.toList_ofList]
    unfold statsRoutingStub
    rewrite [ofLines_of_spelled]
    rotate_left
    · repeat constructor
    · decide +kernel
  have hc : cutLast? unknownLogReturn routingAndLog =
      some (statsRoutingStub ++ ['\n'], ['\n']) := by
    refine (cutLast?_eq_some_iff hq hqq).2 ⟨by simp [routingAndLog], ?_⟩
    rw [← occursIn_iff]
    unfold unknownLogReturn
    rewrite [String.toList_ofList]
    decide
  exact ⟨hm, _, _, hc, by simp, by simp⟩

/-- The routes that are put in name the methods that the last patch adds, and it adds them still. -/
theorem stats_methods_applied_behind_routing :
    "stats_methods" ∈ (applyAll catalogue routingAndLog).applied := by
  obtain ⟨t, ht, -, hl, -⟩ := Edit.result?_of_ready regular_statsMethods ready_routingAndLog
  have hne : t ≠ routingAndLog := fun he => absurd (congrArg List.length he) (Nat.ne_of_gt hl)
  exact (applyAll_catalogue_unmasked routingAndLog).1 statsMethods (by simp [catalogue]) t ht hne

end CliParity.Patch
