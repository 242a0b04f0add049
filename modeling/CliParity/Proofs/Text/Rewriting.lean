import CliParity.Proofs.Text.Occurrence

/-!
# Writing one text over another

`Rewrites old new s t`: some occurrences of `old` in `s`, none overlapping another, are `new` in
`t`. Replacement is a rewriting (`rewrites_replaceAll`), and so is every edit of a text that puts
something in at a place. What holds of all rewritings says which occurrences of other texts they
keep:

* `Rewrites.split`: an occurrence of a text that is separate from `old` stays, and what is on its
  two sides is rewritten.
* `Survives`, `Rewrites.infix_of_survives`: a text that is apart from `old` stays where it stood.
  As a rewriting reads the same backwards (`Rewrites.symm`), a text that survives the way back does
  not arise.

A replacement leaves none of what it replaces if this is apart from the new text and not within it
(`not_infix_replaceAll`), and makes the text longer if the new text is (`length_lt_replaceAll`).
-/

set_option autoImplicit false

namespace CliParity.Text

/-- `t` is `s` with `new` for some occurrences of `old`. -/
inductive Rewrites (old new : List Char) : List Char → List Char → Prop
  | refl (s : List Char) : Rewrites old new s s
  | step (before : List Char) {s t : List Char} :
      Rewrites old new s t → Rewrites old new (before ++ old ++ s) (before ++ new ++ t)

namespace Rewrites

variable {old new p s t : List Char}

theorem symm (h : Rewrites old new s t) : Rewrites new old t s := by
  induction h with
  | refl s => exact .refl s
  | step before _ ih => exact .step before ih

theorem append_left (a : List Char) (h : Rewrites old new s t) :
    Rewrites old new (a ++ s) (a ++ t) := by
  cases h with
  | refl => exact .refl _
  | step before h => simpa using Rewrites.step (a ++ before) h

theorem append_right (h : Rewrites old new s t) (b : List Char) :
    Rewrites old new (s ++ b) (t ++ b) := by
  induction h with
  | refl => exact .refl _
  | step before _ ih => simpa using Rewrites.step before ih

/-- A rewriting at one place. -/
theorem single (before after : List Char) :
    Rewrites old new (before ++ old ++ after) (before ++ new ++ after) :=
  .step before (.refl after)

theorem append {a b : List Char} (ha : Rewrites old new a b) (h : Rewrites old new s t) :
    Rewrites old new (a ++ s) (b ++ t) := by
  induction ha with
  | refl a => exact h.append_left a
  | step before _ ih => simpa using Rewrites.step before ih

/-- What both texts begin with is not written over. -/
theorem narrow {a : List Char} (h : Rewrites (a ++ old) (a ++ new) s t) : Rewrites old new s t := by
  induction h with
  | refl => exact .refl _
  | step before _ ih => simpa using Rewrites.step (before ++ a) ih

theorem eq_nil (ho : old ≠ []) (h : Rewrites old new [] t) : t = [] := by
  generalize hs : ([] : List Char) = s at h
  cases h with
  | refl => rfl
  | step before h => simp_all

/-- An occurrence of a text that is separate from the old one stays. -/
theorem split {a b : List Char} (hp : Separate old p) (h : Rewrites old new s t)
    (hs : s = a ++ p ++ b) :
    ∃ a' b', t = a' ++ p ++ b' ∧ Rewrites old new a a' ∧ Rewrites old new b b' := by
  induction h generalizing a with
  | refl => exact ⟨a, b, hs, .refl a, .refl b⟩
  | @step before s t h ih =>
    rcases hp.occurrence_cases hs with ⟨m, rfl, rfl⟩ | ⟨m, rfl, rfl⟩
    · exact ⟨a, m ++ new ++ t, by simp, .refl a, .step m h⟩
    · obtain ⟨a', b', rfl, ha, hb⟩ := ih rfl
      exact ⟨before ++ new ++ a', b', by simp, .step before ha, hb⟩

end Rewrites

/-- Where `old` is written over with `new`, no occurrence of `p` is lost. -/
def Survives (old new p : List Char) : Prop := Apart old p ∧ (p <:+: old → p <:+: new)

theorem Separate.survives {old p : List Char} (h : Separate old p) (new : List Char) :
    Survives old new p := ⟨h.toApart, fun hp => absurd hp h.not_holds⟩

/-- Most texts are separate, which takes no more than two searches to see. -/
instance (old new p : List Char) : Decidable (Survives old new p) :=
  decidable_of_iff
    (Separate old p ∨ Apart old p ∧ (occursIn p old = true → occursIn p new = true)) <| by
      simp only [occursIn_iff]
      exact ⟨fun h => h.elim (·.survives new) id, .inr⟩

theorem Rewrites.infix_of_survives {old new p s t : List Char} (hp : Survives old new p)
    (h : Rewrites old new s t) (hs : p <:+: s) : p <:+: t := by
  induction h with
  | refl => exact hs
  | step before h ih =>
    rcases hp.1.infix_cases hs with hb | ho | ha
    · exact hb.trans ⟨[], _, by rw [List.nil_append, List.append_assoc]⟩
    · exact (hp.2 ho).trans ⟨before, _, rfl⟩
    · exact (ih ha).trans ⟨_, [], List.append_nil _⟩

/-! ## Replacement -/

section
variable {old new s : List Char}

theorem pieces_ne_nil (c : Char) (p s : List Char) : pieces c p s ≠ [] := by
  rw [pieces]
  split <;> simp

/-- A replacement starts over behind the first occurrence. -/
theorem replaceAll_of_cutFirst? {before after : List Char} (ho : old ≠ [])
    (h : cutFirst? old s = some (before, after)) :
    replaceAll old new s = before ++ new ++ replaceAll old new after := by
  obtain ⟨c, p, rfl⟩ := List.exists_cons_of_ne_nil ho
  rw [replaceAll, pieces]
  split
  · rename_i hn
    rw [h] at hn
    cases hn
  · rename_i b a hc
    rw [h] at hc
    cases hc
    obtain ⟨r, rs, hr⟩ := List.exists_cons_of_ne_nil (pieces_ne_nil c p after)
    rw [replaceAll, hr]
    simp

theorem replaceAll_of_absent (h : ¬ old <:+: s) : replaceAll old new s = s := by
  obtain ⟨c, p, rfl⟩ := List.exists_cons_of_ne_nil (show old ≠ [] from fun he =>
    h (he ▸ List.nil_infix))
  rw [replaceAll, pieces]
  split
  · simp
  · rename_i b a hc
    exact absurd ⟨b, a, (cutFirst?_eq_append hc).symm⟩ h

/-- What holds of a text without `old`, and of a text whose first occurrence of `old` has a rest
for which it holds, holds of all texts. -/
theorem replace_induction {P : List Char → Prop} (ho : old ≠ [])
    (none : ∀ s, ¬ old <:+: s → P s)
    (some : ∀ before after, ¬ old <:+: before → cutFirst? old (before ++ old ++ after) =
      some (before, after) → P after → P (before ++ old ++ after)) (s : List Char) : P s := by
  by_cases h : old <:+: s
  · obtain ⟨b, a, hc⟩ := exists_cutFirst? h
    have hs := cutFirst?_eq_append hc
    have hl := List.length_pos_iff.2 ho
    rw [hs] at hc ⊢
    exact some b a (not_infix_of_cutFirst? ho hc) hc (replace_induction ho none some a)
  · exact none s h
termination_by s.length
decreasing_by
  subst hs
  simp only [List.length_append]
  omega

theorem rewrites_replaceAll (ho : old ≠ []) (s : List Char) :
    Rewrites old new s (replaceAll old new s) := by
  induction s using replace_induction ho with
  | none s h => rw [replaceAll_of_absent h]; exact .refl s
  | some before after _ hc ih => rw [replaceAll_of_cutFirst? ho hc]; exact .step before ih

/-- Nothing of what is replaced is left, provided that it neither stands in the new text nor
arises at its ends. -/
theorem not_infix_replaceAll (ho : old ≠ []) (h : Separate new old) (s : List Char) :
    ¬ old <:+: replaceAll old new s := by
  induction s using replace_induction ho with
  | none s h => rwa [replaceAll_of_absent h]
  | some before after hb hc ih =>
    rw [replaceAll_of_cutFirst? ho hc]
    exact fun hi => (h.infix_cases hi).elim hb ih

/-- The new text is there once the old one was. -/
theorem infix_replaceAll (ho : old ≠ []) (h : old <:+: s) : new <:+: replaceAll old new s := by
  obtain ⟨b, a, hc⟩ := exists_cutFirst? h
  rw [replaceAll_of_cutFirst? ho hc]
  exact ⟨b, _, rfl⟩

theorem length_le_replaceAll (ho : old ≠ []) (hl : old.length ≤ new.length) (s : List Char) :
    s.length ≤ (replaceAll old new s).length := by
  induction s using replace_induction ho with
  | none s h => exact Nat.le_of_eq (congrArg List.length (replaceAll_of_absent h).symm)
  | some before after _ hc ih =>
    rw [replaceAll_of_cutFirst? ho hc]
    simp only [List.length_append]
    omega

theorem length_lt_replaceAll (ho : old ≠ []) (hl : old.length < new.length) (h : old <:+: s) :
    s.length < (replaceAll old new s).length := by
  obtain ⟨b, a, hc⟩ := exists_cutFirst? h
  have := length_le_replaceAll ho (Nat.le_of_lt hl) a
  rw [replaceAll_of_cutFirst? ho hc, cutFirst?_eq_append hc]
  simp only [List.length_append]
  omega

end

end CliParity.Text
