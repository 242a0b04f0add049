import CliParity.Proofs.Patch.Settling

/-!
# Where the catalogue is idempotent

The last patch puts in an import of the module of times, so a first boundary behind it makes the
first patch ready for a second run. `Reopens s` says of the text before the first run where this
happens, and nowhere else is a second run different from none (`applyAll_catalogue_idempotent_iff`).

The condition is on the text as shipped: the first patch is settled where it holds
(`Reopens.settled`), and a rewriting beside all that the first and the last patch look for neither
makes nor breaks it (`Reopens.of_rewrites`).
-/

set_option autoImplicit false

namespace CliParity.Patch

open Edit Snippet Text

/-- The log command's last statement stands past the start of the text, and all of these behind its
last occurrence or nowhere: the line that ends the imports, in front of which no module of times is
imported. Neither the first nor the last patch is in place. -/
def Reopens (s : List Char) : Prop :=
  ¬ subprocessMarker <:+: s ∧ ¬ statsMarker <:+: s ∧
    ∃ before between after, s = before ++ unknownLogReturn ++ between ++ loggerLine ++ after ∧
      before ≠ [] ∧ ¬ unknownLogReturn <:+: between ++ loggerLine ++ after ∧
      ¬ loggerLine <:+: before ++ unknownLogReturn ++ between ∧
      ¬ timeImport <:+: before ++ unknownLogReturn ++ between

/-- A log command right in front of the line that ends the imports. -/
theorem reopens_log_command :
    Reopens ("    return \"Unknown log command\"\nlogger = ".toList) := by
  unfold Reopens subprocessMarker statsMarker unknownLogReturn loggerLine timeImport
  repeat rewrite [String.toList_ofList]
  refine ⟨?_, ?_, [' ', ' ', ' ', ' '], [], [], rfl, by simp, ?_, ?_, ?_⟩
  all_goals
    rw [← occursIn_iff]
    decide +kernel

/-- All that the first and the last patch look for is beside `u`. -/
structure Untouched (u : List Char) : Prop where
  subprocessMarker : Separate u subprocessMarker
  loggerLine : Separate u loggerLine
  timeImport : Separate u timeImport
  statsMarker : Separate u statsMarker
  unknownLogReturn : Separate u unknownLogReturn

theorem untouched_of_sought {u : List Char}
    (h : ∀ x ∈ imports.edit.sought ++ statsMethods.edit.sought, Separate u x) : Untouched u := by
  constructor <;> exact h _ (by simp [Edit.sought, imports, statsMethods])

namespace Reopens

variable {s t old new : List Char}

theorem settled (h : Reopens s) : imports.Settled s := by
  obtain ⟨-, -, before, between, after, hs, -, -, hl, ht⟩ := h
  obtain ⟨hq, hqq⟩ := regular_imports.landmark loggerLine rfl
  refine (settled_iff regular_imports).2 ?_
  rintro ⟨-, head, tail, hc, hi⟩
  have hc' : cutFirst? loggerLine s = some (before ++ unknownLogReturn ++ between, after) :=
    (cutFirst?_eq_some_iff hq hqq).2 ⟨hs, hl⟩
  obtain ⟨rfl, -⟩ := Prod.mk.inj (Option.some.inj (hc.symm.trans hc'))
  exact ht hi

theorem of_rewrites (ho : Untouched old) (hn : Untouched new) (hw : Rewrites old new s t)
    (h : Reopens s) : Reopens t := by
  -- what does not occur does not arise: the way back would keep it
  have absent {x u v : List Char} (hx : Separate new x) (huv : Rewrites old new u v)
      (hu : ¬ x <:+: u) : ¬ x <:+: v :=
    fun hv => hu (huv.symm.infix_of_survives (hx.survives old) hv)
  obtain ⟨hm, hd, before, between, after, hs, hne, hu, hl, hi⟩ := h
  obtain ⟨front, after', rfl, hfront, hafter⟩ := hw.split ho.loggerLine hs
  obtain ⟨before', between', rfl, hbefore, hbetween⟩ := hfront.split ho.unknownLogReturn rfl
  refine ⟨absent hn.subprocessMarker hw hm, absent hn.statsMarker hw hd, before', between', after',
    rfl, ?_, ?_, absent hn.loggerLine hfront hl, absent hn.timeImport hfront hi⟩
  · rintro rfl
    exact hne (hbefore.symm.eq_nil hn.loggerLine.ne_nil)
  · exact absent hn.unknownLogReturn ((hbetween.append_right _).append hafter) hu

end Reopens

/-! ## The run up to the last patch -/

section
variable {q : Patch} {s : List Char}

theorem reopens_step_imports : Reopens (imports.step s) ↔ Reopens s := by
  by_cases hi : imports.Settled s
  · rw [step_of_settled hi]
  refine ⟨fun h => ?_, fun h => absurd h.settled hi⟩
  obtain ⟨t, ht⟩ := Option.ne_none_iff_exists'.1 hi
  have hm : subprocessMarker <:+: timeAndSubprocessImport :=
    switchesOff_catalogue imports (by simp [catalogue]) subprocessMarker rfl
  have hn : timeAndSubprocessImport <:+: imports.step s := by
    rw [step, ht]
    exact (effect?_spec regular_imports ht).2.2.2
  exact absurd (hm.trans hn) h.1

/-- An inner patch writes beside all that the first and the last patch look for. -/
theorem rewrites_step_inner (hq : q ∈ inner) (s : List Char) :
    ∃ old new, Untouched old ∧ Untouched new ∧ Rewrites old new s (q.step s) := by
  have hw := rewrites_step (regular_catalogue q (mem_catalogue_of_mem_inner hq)) s
  have hu := compatible_catalogue.untouched_by_inner q hq
  exact ⟨_, _, untouched_of_sought fun x hx => (hu x hx).1,
    untouched_of_sought fun x hx => (hu x hx).2, rewrites_narrowed hw⟩

theorem reopens_step_inner (hq : q ∈ inner) : Reopens (q.step s) ↔ Reopens s := by
  obtain ⟨old, new, ho, hn, hw⟩ := rewrites_step_inner hq s
  exact ⟨.of_rewrites hn ho hw.symm, .of_rewrites ho hn hw⟩

theorem settled_imports_step_inner (hq : q ∈ inner) (h : imports.Settled s) :
    imports.Settled (q.step s) := by
  obtain ⟨old, new, ho, hn, hw⟩ := rewrites_step_inner hq s
  have hu : imports.edit.Undisturbed old new :=
    ⟨ho.subprocessMarker.survives new, ho.loggerLine.survives new, hn.loggerLine,
      hn.timeImport.survives old⟩
  rw [settled_iff regular_imports] at h ⊢
  exact fun hr => h (Edit.ready_of_rewrites regular_imports hu hw hr)

/-- The inner patches neither make nor break the condition, nor do they give the first patch
something to do. -/
theorem reopens_run_inner (h : imports.Settled s) :
    imports.Settled (applyAll inner s).content ∧
      (Reopens (applyAll inner s).content ↔ Reopens s) := by
  refine applyAll_keeps (P := fun t => imports.Settled t ∧ (Reopens t ↔ Reopens s)) ?_ ⟨h, .rfl⟩
  exact fun q hq t ⟨ht, hs⟩ => ⟨settled_imports_step_inner hq ht, (reopens_step_inner hq).trans hs⟩

end

/-! ## The last patch -/

/-- The last patch makes the first one ready just where the condition holds. -/
theorem settled_step_statsMethods_iff {s : List Char} (h : imports.Settled s) :
    imports.Settled (statsMethods.step s) ↔ ¬ Reopens s := by
  have ho := opening_statsMethods
  obtain ⟨hq, hqq⟩ := regular_statsMethods.landmark unknownLogReturn rfl
  have hfeed : '\n' ∈ loggerLine := List.mem_of_mem_head? ho.boundary_line.1
  have hn : ¬ imports.edit.Ready s := (settled_iff regular_imports).1 h
  rw [settled_iff regular_imports, not_iff_not]
  by_cases hr : statsMethods.edit.Ready s
  · have hready := (ready_appendToLastLine_iff regular_statsMethods ho.anchor_line).1 hr
    obtain ⟨hm, before, line, rest, rfl, hne, hl, hlast⟩ := hready
    have ht := result?_appendToLastLine regular_statsMethods ho.anchor_line hm hne hl hlast
    rw [step_of_result? regular_statsMethods hr ht]
    refine (ready_insert_iff ho regular_imports rfl hn).trans ⟨?_, ?_⟩
    · rintro ⟨hp, m, after, hb, hlm, him⟩
      refine ⟨hp, hm, before, line ++ m, after, by simp [hb], hne, ?_, by simpa using hlm,
        by simpa using him⟩
      simpa [hb] using hlast
    · rintro ⟨hp, -, before', between, after, hs, -, hlast', hlm, him⟩
      -- there is but one last occurrence, so the condition speaks of the place of the insertion
      have hc : cutLast? unknownLogReturn (before ++ unknownLogReturn ++ line ++ '\n' :: rest) =
          some (before', between ++ loggerLine ++ after) :=
        (cutLast?_eq_some_iff hq hqq).2 ⟨hs.trans (by simp), hlast'⟩
      have hc' : cutLast? unknownLogReturn (before ++ unknownLogReturn ++ line ++ '\n' :: rest) =
          some (before, line ++ '\n' :: rest) := (cutLast?_eq_some_iff hq hqq).2 ⟨by simp, hlast⟩
      obtain ⟨rfl, htail⟩ := Prod.mk.inj (Option.some.inj (hc'.symm.trans hc))
      obtain ⟨m, rfl, hb⟩ := eq_append_of_not_mem hl (by simp [ho.boundary_line.1])
        (htail.trans (List.append_assoc _ _ _))
      exact ⟨hp, m, after, by simpa using hb, by simpa using hlm, by simpa using him⟩
  · -- the condition would make the last patch ready
    rw [step_of_settled ((settled_iff regular_statsMethods).2 hr)]
    refine iff_of_false hn fun ⟨_, hm, before, between, after, hs, hne, hlast, _⟩ => hr ?_
    have hc : cutLast? unknownLogReturn s = some (before, between ++ loggerLine ++ after) :=
      (cutLast?_eq_some_iff hq hqq).2 ⟨hs.trans (by simp), hlast⟩
    exact ⟨hm, before, _, hc, hne, by simp [hfeed]⟩

theorem settled_imports_nthRun_iff (s : List Char) :
    imports.Settled (nthRun 1 s).content ↔ ¬ Reopens s := by
  have hi : imports.Settled (imports.step s) := settled_step_self (by simp [catalogue]) s
  obtain ⟨hs, hr⟩ := reopens_run_inner hi
  have ho : (nthRun 1 s).content = statsMethods.step (applyAll inner (imports.step s)).content := by
    rw [← content_singleton, ← content_append, ← content_cons]
    rfl
  rw [ho, settled_step_statsMethods_iff hs, hr, reopens_step_imports]

theorem applied_nthRun_two_of_reopens {s : List Char} (h : Reopens s) :
    (nthRun 2 s).applied = ["imports"] := by
  rcases applyAll_of_settled_rest (settled_rest s) with ⟨hi, -⟩ | ⟨-, he⟩
  · exact absurd h ((settled_imports_nthRun_iff s).1 hi)
  · exact congrArg Outcome.applied he

/-- **Where a second run does nothing.** -/
theorem applyAll_catalogue_idempotent_iff (s : List Char) :
    (nthRun 2 s = ⟨(nthRun 1 s).content, []⟩ ↔ ¬ Reopens s) ∧
      (Reopens s → (nthRun 2 s).applied = ["imports"]) := by
  refine ⟨⟨fun he hs => ?_, fun hn => ?_⟩, applied_nthRun_two_of_reopens⟩
  · have ha := applied_nthRun_two_of_reopens hs
    rw [he] at ha
    cases ha
  · have hi := (settled_imports_nthRun_iff s).2 hn
    exact ((applyAll_of_settled_rest (settled_rest s)).resolve_right fun h => h.1 hi).2

/-- A second run changes what the first one leaves of a log command in front of the line that ends
the imports. -/
theorem applied_twice_log_command :
    (nthRun 2 "    return \"Unknown log command\"\nlogger = ".toList).applied = ["imports"] :=
  (applyAll_catalogue_idempotent_iff _).2 reopens_log_command

end CliParity.Patch
