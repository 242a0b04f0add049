import CliParity.Proofs.Patch.Idempotence

/-!
# Repeated runs of the catalogue

After a run at most the first patch is not settled, and a second run settles that one too
(`settled_nthRun_two`). So two runs are always enough (`applyAll_catalogue_converges`), and there are
texts that need both (`reboot_then_imports`).
-/

set_option autoImplicit false

namespace CliParity.Patch

open Snippet Text

/-- The methods and routes that the catalogue replaces. -/
def stubs : List (List Char) :=
  [rebootStub, clearStatsStub, neighborRemoveStub, tempRadioStub, statsRoutingStub]

variable {s : List Char}

/-- Where at most the first patch is not settled, a run settles all. -/
theorem settled_catalogue_of_settled_rest (h : ∀ p ∈ rest, p.Settled s) :
    ∀ p ∈ catalogue, p.Settled (applyAll catalogue s).content := by
  intro p hp
  rcases applyAll_of_settled_rest h with ⟨hi, he⟩ | ⟨-, he⟩ <;> rw [he] <;>
    rcases List.mem_cons.1 hp with rfl | hp
  · exact hi
  · exact h p hp
  · exact settled_step_self (by simp [catalogue]) s
  · exact settled_rest_step_imports h p hp

theorem not_infix_of_settled_rest (h : ∀ p ∈ rest, p.Settled s) :
    ∀ stub ∈ stubs, ¬ stub <:+: s := by
  -- a plain replacement is settled only where its stub does not occur
  have absent {p : Patch} {old new : List Char} (hp : p ∈ rest) (he : p.edit = .replace old new) :
      ¬ old <:+: s := by
    have hr := (settled_iff (regular_catalogue p (mem_catalogue_of_mem_rest hp))).1 (h p hp)
    rw [he] at hr
    exact hr
  intro stub hs
  simp only [stubs, List.mem_cons, List.not_mem_nil, or_false] at hs
  rcases hs with rfl | rfl | rfl | rfl | rfl
  · exact absent (p := reboot) (by simp [rest, inner]) rfl
  · exact absent (p := clearStats) (by simp [rest, inner]) rfl
  · exact absent (p := neighborRemove) (by simp [rest, inner]) rfl
  · exact absent (p := tempRadio) (by simp [rest, inner]) rfl
  · exact absent (p := statsRouting) (by simp [rest, inner]) rfl

/-! ## The runs after the first -/

theorem settled_nthRun_two (s : List Char) : ∀ p ∈ catalogue, p.Settled (nthRun 2 s).content :=
  settled_catalogue_of_settled_rest (settled_rest s)

/-- Nothing happens after the second run. -/
theorem nthRun_add_three (n : Nat) (s : List Char) :
    nthRun (n + 3) s = ⟨(nthRun 2 s).content, []⟩ := by
  induction n with
  | zero => exact applyAll_of_settled (settled_nthRun_two s)
  | succ n ih =>
    rw [Nat.add_right_comm, nthRun, ih]
    exact applyAll_of_settled (settled_nthRun_two s)

/-- **Two runs are enough.** The second run applies at most the first patch, a further one none, and
no stub is left after the first. -/
theorem applyAll_catalogue_converges (s : List Char) :
    ((nthRun 2 s).applied = [] ∨ (nthRun 2 s).applied = ["imports"]) ∧
      (∀ n, nthRun (n + 3) s = ⟨(nthRun 2 s).content, []⟩) ∧
      ∀ stub ∈ stubs, ¬ stub <:+: (nthRun 1 s).content ∧ ¬ stub <:+: (nthRun 2 s).content := by
  have h₁ : ∀ p ∈ rest, p.Settled (nthRun 1 s).content := settled_rest s
  refine ⟨?_, fun n => nthRun_add_three n s, fun stub hs => ⟨?_, ?_⟩⟩
  · rcases applyAll_of_settled_rest h₁ with ⟨-, he⟩ | ⟨-, he⟩
    · exact .inl (congrArg Outcome.applied he)
    · exact .inr (congrArg Outcome.applied he)
  · exact not_infix_of_settled_rest h₁ stub hs
  · refine not_infix_of_settled_rest (fun p hp => ?_) stub hs
    exact settled_nthRun_two s p (mem_catalogue_of_mem_rest hp)

/-- The stub of the reboot method, and behind a log command's last statement the line that ends the
imports. -/
def rebootAndLog : List Char := rebootStub ++ ('\n' :: unknownLogReturn ++ loggerLine)

theorem reopens_rebootAndLog : Reopens rebootAndLog := by
  have hfacts : ¬ subprocessMarker <:+: rebootAndLog ∧ ¬ statsMarker <:+: rebootAndLog ∧
      ¬ unknownLogReturn <:+: loggerLine ∧
      ¬ loggerLine <:+: rebootStub ++ '\n' :: unknownLogReturn ∧
      ¬ timeImport <:+: rebootStub ++ '\n' :: unknownLogReturn := by
    simp only [← occursIn_iff]
    unfold rebootAndLog rebootStub subprocessMarker statsMarker unknownLogReturn loggerLine timeImport
    repeat rewrite [String.toList_ofList]
    rewrite [ofLines_of_spelled]
    rotate_left
    repeat' first | exact Spelled.single | apply Spelled.cons
    decide +kernel
  obtain ⟨hm, hd, hu, hl, ht⟩ := hfacts
  refine ⟨hm, hd, rebootStub ++ ['\n'], [], [], by simp [rebootAndLog], by simp, ?_⟩
  simpa using ⟨hu, hl, ht⟩

/-- The first run takes the stub out, and the second has the import of the first patch left. -/
theorem reboot_then_imports :
    rebootStub ∈ stubs ∧ rebootStub <:+: rebootAndLog ∧
      ¬ rebootStub <:+: (nthRun 1 rebootAndLog).content ∧
      (nthRun 2 rebootAndLog).applied = ["imports"] ∧
      nthRun 3 rebootAndLog = ⟨(nthRun 2 rebootAndLog).content, []⟩ := by
  have hs : rebootStub ∈ stubs := by simp [stubs]
  obtain ⟨-, hthird, habsent⟩ := applyAll_catalogue_converges rebootAndLog
  exact ⟨hs, (List.prefix_append _ _).isInfix, (habsent rebootStub hs).1,
    applied_nthRun_two_of_reopens reopens_rebootAndLog, hthird 0⟩

end CliParity.Patch
