import CliParity.Patch.Catalogue
import CliParity.Proofs.Text.Rewriting

/-!
# When an edit has an effect

`Edit.Ready e s` says, by what occurs in `s`, that the edit `e` makes a difference to `s`. An edit
writes one text over another (`Edit.written`); for those that are `Regular`, which the check of a
catalogue can decide, an edit has an effect exactly where it is ready, the effect is a rewriting,
and it makes the text longer (`Patch.effect?_eq_none_iff`, `Patch.effect?_spec`).

Two properties of an edit, also decidable, say how it stands to a rewriting:

* `Edit.SwitchesOff`: it is not ready for its own result (`Edit.not_ready_of_result?`).
* `Edit.Undisturbed old new`: it is ready after a rewriting only if it was before
  (`Edit.ready_of_rewrites`).
-/

set_option autoImplicit false

namespace CliParity

open Text

namespace Edit

/-! ## Readiness -/

/-- What an edit writes over, and what it writes there. -/
def written : Edit → List Char × List Char
  | replace old new => (old, new)
  | replaceUnless _ old new => (old, new)
  | replaceBefore _ _ old new => (old, new)
  | insertAfter _ anchor text => (anchor, anchor ++ text)
  | appendToLastLine _ _ text => (['\n'], text ++ ['\n'])

/-- The same, with no more of an anchor than its last character. -/
def narrowed : Edit → List Char × List Char
  | insertAfter _ anchor text =>
    (anchor.drop (anchor.length - 1), anchor.drop (anchor.length - 1) ++ text)
  | e => e.written

/-- The text whose presence says that the edit is in place. -/
def marker? : Edit → Option (List Char)
  | replace _ _ => none
  | replaceUnless marker _ _ => some marker
  | replaceBefore marker _ _ _ => some marker
  | insertAfter marker _ _ => some marker
  | appendToLastLine marker _ _ => some marker

/-- The text of which the first or the last occurrence decides where the edit is done. -/
def landmark? : Edit → Option (List Char)
  | replaceBefore _ boundary _ _ => some boundary
  | appendToLastLine _ anchor _ => some anchor
  | _ => none

/-- Everything that the edit looks for. -/
def sought : Edit → List (List Char)
  | replace old _ => [old]
  | replaceUnless marker old _ => [marker, old]
  | replaceBefore marker boundary old _ => [marker, boundary, old]
  | insertAfter marker anchor _ => [marker, anchor]
  | appendToLastLine marker anchor _ => [marker, anchor]

/-- The edit makes a difference. -/
def Ready : Edit → List Char → Prop
  | replace old _, s => old <:+: s
  | replaceUnless marker old _, s => ¬ marker <:+: s ∧ old <:+: s
  | replaceBefore marker boundary old _, s => ¬ marker <:+: s ∧
      ∃ head tail, cutFirst? boundary s = some (head, tail) ∧ old <:+: head
  | insertAfter marker anchor _, s => ¬ marker <:+: s ∧ anchor <:+: s
  | appendToLastLine marker anchor _, s => ¬ marker <:+: s ∧
      ∃ head tail, cutLast? anchor s = some (head, tail) ∧ head ≠ [] ∧ '\n' ∈ anchor ++ tail

/-- The edit writes a longer text over one that is not empty, and its landmark can be in no two
places at once. -/
structure Regular (e : Edit) : Prop where
  old_ne_nil : e.written.1 ≠ []
  grows : e.written.1.length < e.written.2.length
  landmark : ∀ q ∈ e.landmark?, q ≠ [] ∧ ¬ Overlaps q q

instance (e : Edit) : Decidable e.Regular :=
  decidable_of_iff (e.written.1 ≠ [] ∧ e.written.1.length < e.written.2.length ∧
      ∀ q ∈ e.landmark?, q ≠ [] ∧ ¬ Overlaps q q)
    ⟨fun ⟨h₁, h₂, h₃⟩ => ⟨h₁, h₂, h₃⟩, fun ⟨h₁, h₂, h₃⟩ => ⟨h₁, h₂, h₃⟩⟩

theorem rewrites_narrowed {e : Edit} {s t : List Char}
    (h : Rewrites e.written.1 e.written.2 s t) : Rewrites e.narrowed.1 e.narrowed.2 s t := by
  cases e with
  | insertAfter marker anchor text =>
    refine Rewrites.narrow (a := anchor.take (anchor.length - 1)) ?_
    simpa only [narrowed, written, ← List.append_assoc, List.take_append_drop] using h
  | _ => exact h

/-! ## The effect -/

variable {e : Edit} {s t : List Char}

/-- What a ready edit makes of a text: a rewriting that makes it longer and holds the new text. -/
theorem result?_of_ready (hr : e.Regular) (h : e.Ready s) :
    ∃ t, e.result? s = some t ∧ Rewrites e.written.1 e.written.2 s t ∧ s.length < t.length ∧
      e.written.2 <:+: t := by
  cases e with
  | replace old new =>
    have ho : old ≠ [] := hr.old_ne_nil
    have hg : old.length < new.length := hr.grows
    refine ⟨_, if_pos (contains_iff.2 h), rewrites_replaceAll ho s, length_lt_replaceAll ho hg h,
      infix_replaceAll ho h⟩
  | replaceUnless marker old new =>
    obtain ⟨hm, h⟩ := h
    have ho : old ≠ [] := hr.old_ne_nil
    have hg : old.length < new.length := hr.grows
    refine ⟨replaceAll old new s, ?_, rewrites_replaceAll ho s, length_lt_replaceAll ho hg h,
      infix_replaceAll ho h⟩
    rw [result?, if_neg (mt contains_iff.1 hm), replaceIn?, if_pos (contains_iff.2 h)]
  | replaceBefore marker boundary old new =>
    obtain ⟨hm, head, tail, hc, h⟩ := h
    have ho : old ≠ [] := hr.old_ne_nil
    have hg : old.length < new.length := hr.grows
    -- a boundary at the very start is none, but then there is nothing to replace either
    have hne : head ≠ [] := fun he => ho (List.infix_nil.1 (he ▸ h))
    refine ⟨replaceAll old new head ++ boundary ++ tail, ?_, ?_, ?_, ?_⟩
    · rw [result?, if_neg (mt contains_iff.1 hm), replaceBefore?, hc]
      simp [hne]
    · rw [cutFirst?_eq_append hc]
      exact ((rewrites_replaceAll ho head).append_right boundary).append_right tail
    · have := length_lt_replaceAll ho hg h
      rw [cutFirst?_eq_append hc]
      simp only [List.length_append]
      omega
    · have hn : new <:+: replaceAll old new head := infix_replaceAll ho h
      exact hn.trans ⟨[], boundary ++ tail, by simp⟩
  | insertAfter marker anchor text =>
    obtain ⟨hm, h⟩ := h
    have ho : anchor ≠ [] := hr.old_ne_nil
    have hg : anchor.length < (anchor ++ text).length := hr.grows
    refine ⟨_, if_neg (mt contains_iff.1 hm), rewrites_replaceAll ho s,
      length_lt_replaceAll ho hg h, infix_replaceAll ho h⟩
  | appendToLastLine marker anchor text =>
    obtain ⟨hm, head, tail, hc, hne, hn⟩ := h
    obtain ⟨line, rest, hl⟩ := exists_cutFirst? ((List.singleton_infix_iff _ _).2 hn)
    have hs : s = head ++ line ++ ['\n'] ++ rest := by
      rw [cutLast?_eq_append hc, List.append_assoc, cutFirst?_eq_append hl]
      simp
    refine ⟨head ++ line ++ (text ++ ['\n']) ++ rest, ?_, ?_, ?_, ⟨_, _, rfl⟩⟩
    · rw [result?, if_neg (mt contains_iff.1 hm), appendToLastLine?, hc]
      simp [hne, hl]
    · rw [hs]
      exact .single _ _
    · have : 0 < text.length := by simpa [written] using hr.grows
      rw [hs]
      simp only [List.length_append]
      omega

theorem unlessMarker_iff {marker : List Char} {result : Option (List Char)} :
    (if contains s marker then none else result) = some t ↔ ¬ marker <:+: s ∧ result = some t := by
  rw [← contains_iff]
  split <;> simp_all

theorem infix_of_replaceIn? {old new : List Char} (h : replaceIn? old new s = some t) :
    old <:+: s := by
  by_contra hn
  rw [replaceIn?, if_neg (mt contains_iff.1 hn)] at h
  cases h

/-- An edit that is not ready has no result, or the text itself. -/
theorem result?_of_not_ready (h : ¬ e.Ready s) (ht : e.result? s = some t) : t = s := by
  cases e with
  | replace old new => exact absurd (infix_of_replaceIn? ht) h
  | replaceUnless marker old new =>
    obtain ⟨hm, ht⟩ := unlessMarker_iff.1 ht
    exact absurd ⟨hm, infix_of_replaceIn? ht⟩ h
  | replaceBefore marker boundary old new =>
    obtain ⟨hm, ht⟩ := unlessMarker_iff.1 ht
    rw [replaceBefore?] at ht
    split at ht
    · rename_i head tail hc
      split at ht
      · cases ht
      · have ho : ¬ old <:+: head := fun ho => h ⟨hm, head, tail, hc, ho⟩
        rw [replaceAll_of_absent ho, Option.some.injEq] at ht
        rw [← ht, cutFirst?_eq_append hc]
    · cases ht
  | insertAfter marker anchor text =>
    obtain ⟨hm, ht⟩ := unlessMarker_iff.1 ht
    rw [replaceAll_of_absent fun ho => h ⟨hm, ho⟩, Option.some.injEq] at ht
    exact ht.symm
  | appendToLastLine marker anchor text =>
    obtain ⟨hm, ht⟩ := unlessMarker_iff.1 ht
    rw [appendToLastLine?] at ht
    split at ht
    · rename_i head tail hc
      split at ht
      · cases ht
      · rename_i hne
        obtain ⟨⟨line, rest⟩, hl, -⟩ := Option.map_eq_some_iff.1 ht
        have hn : '\n' ∈ anchor ++ tail := (List.singleton_infix_iff _ _).1
          (cutFirst?_isSome_iff.1 (Option.isSome_of_eq_some hl))
        exact absurd ⟨hm, head, tail, hc, by simpa using hne, hn⟩ h
    · cases ht

/-! ## The effect on an edit's own readiness -/

/-- The edit puts its marker in, or leaves none of what it replaces. -/
def SwitchesOff : Edit → Prop
  | replace old new => Separate new old
  | e => ∀ m ∈ e.marker?, m <:+: e.written.2

theorem not_ready_of_result? (hr : e.Regular) (ho : e.SwitchesOff) (h : e.Ready s)
    (ht : e.result? s = some t) : ¬ e.Ready t := by
  obtain ⟨t', ht', -, -, hn⟩ := result?_of_ready hr h
  obtain rfl : t' = t := Option.some.inj (ht'.symm.trans ht)
  cases e with
  | replace old new =>
    rw [result?, replaceIn?, if_pos (contains_iff.2 h), Option.some.injEq] at ht
    exact ht ▸ not_infix_replaceAll hr.old_ne_nil ho s
  | replaceUnless marker old new => exact fun h => h.1 ((ho marker rfl).trans hn)
  | replaceBefore marker boundary old new => exact fun h => h.1 ((ho marker rfl).trans hn)
  | insertAfter marker anchor text => exact fun h => h.1 ((ho marker rfl).trans hn)
  | appendToLastLine marker anchor text => exact fun h => h.1 ((ho marker rfl).trans hn)

/-! ## The effect of other rewritings -/

/-- Where `old` is written over with `new`, the edit does not become ready: the marker survives,
what the edit looks for does not arise, and the landmark neither arises nor is lost. -/
def Undisturbed (old new : List Char) : Edit → Prop
  | replace p _ => Survives new old p
  | replaceUnless marker p _ => Survives old new marker ∧ Survives new old p
  | replaceBefore marker q p _ =>
    Survives old new marker ∧ Survives old new q ∧ Separate new q ∧ Survives new old p
  | insertAfter marker p _ => Survives old new marker ∧ Survives new old p
  | appendToLastLine marker q _ =>
    Survives old new marker ∧ Survives old new q ∧ Separate new q ∧ Survives new old ['\n']

theorem ready_of_rewrites {old new : List Char} (hr : e.Regular) (hu : e.Undisturbed old new)
    (hw : Rewrites old new s t) (h : e.Ready t) : e.Ready s := by
  -- what survives is there after the rewriting, what survives the way back was there before it
  have keeps {m : List Char} (hm : Survives old new m) (ht : ¬ m <:+: t) : ¬ m <:+: s :=
    fun hs => ht (hw.infix_of_survives hm hs)
  have back {m : List Char} (hm : Survives new old m) (ht : m <:+: t) : m <:+: s :=
    hw.symm.infix_of_survives hm ht
  cases e with
  | replace p n => exact back hu h
  | replaceUnless marker p n => exact ⟨keeps hu.1 h.1, back hu.2 h.2⟩
  | insertAfter marker p n => exact ⟨keeps hu.1 h.1, back hu.2 h.2⟩
  | replaceBefore marker q p n =>
    obtain ⟨hm, head, tail, hc, hp⟩ := h
    obtain ⟨hum, huq, hsep, hup⟩ := hu
    obtain ⟨hq, hqq⟩ := hr.landmark q rfl
    obtain ⟨ht, hn⟩ := (cutFirst?_eq_some_iff hq hqq).1 hc
    -- the first boundary stood there before, with the front rewritten
    obtain ⟨head', tail', hs, hh, -⟩ := hw.symm.split hsep ht
    refine ⟨keeps hum hm, head', tail', (cutFirst?_eq_some_iff hq hqq).2 ⟨hs, fun hi => ?_⟩,
      hh.infix_of_survives hup hp⟩
    exact hn (hh.symm.infix_of_survives huq hi)
  | appendToLastLine marker q n =>
    obtain ⟨hm, head, tail, hc, hne, hp⟩ := h
    obtain ⟨hum, huq, hsep, hup⟩ := hu
    obtain ⟨hq, hqq⟩ := hr.landmark q rfl
    obtain ⟨ht, hn⟩ := (cutLast?_eq_some_iff hq hqq).1 hc
    obtain ⟨head', tail', hs, hh, htl⟩ := hw.symm.split hsep ht
    refine ⟨keeps hum hm, head', tail', (cutLast?_eq_some_iff hq hqq).2 ⟨hs, fun hi => ?_⟩, ?_, ?_⟩
    · exact hn (htl.symm.infix_of_survives huq hi)
    · rintro rfl
      exact hne (hh.symm.eq_nil hum.1.ne_nil)
    · rw [List.mem_append] at hp ⊢
      refine hp.imp_right fun hi => ?_
      rw [← List.singleton_infix_iff] at hi ⊢
      exact htl.infix_of_survives hup hi

instance : (e : Edit) → Decidable e.SwitchesOff
  | replace old new => inferInstanceAs (Decidable (Separate new old))
  | replaceUnless marker _ new =>
    decidable_of_iff (occursIn marker new = true)
      (by simp [SwitchesOff, marker?, written, occursIn_iff])
  | replaceBefore marker _ _ new =>
    decidable_of_iff (occursIn marker new = true)
      (by simp [SwitchesOff, marker?, written, occursIn_iff])
  | insertAfter marker anchor text =>
    decidable_of_iff (occursIn marker (anchor ++ text) = true)
      (by simp [SwitchesOff, marker?, written, occursIn_iff])
  | appendToLastLine marker _ text =>
    decidable_of_iff (occursIn marker (text ++ ['\n']) = true)
      (by simp [SwitchesOff, marker?, written, occursIn_iff])

instance (old new : List Char) : (e : Edit) → Decidable (e.Undisturbed old new)
  | replace p _ => inferInstanceAs (Decidable (Survives new old p))
  | replaceUnless _ _ _ => inferInstanceAs (Decidable (_ ∧ _))
  | replaceBefore _ _ _ _ => inferInstanceAs (Decidable (_ ∧ _ ∧ _ ∧ _))
  | insertAfter _ _ _ => inferInstanceAs (Decidable (_ ∧ _))
  | appendToLastLine _ _ _ => inferInstanceAs (Decidable (_ ∧ _ ∧ _ ∧ _))

end Edit

/-! ## Patches -/

namespace Patch

variable {p : Patch} {s t : List Char}

theorem effect?_eq_none_iff (hr : p.edit.Regular) : p.effect? s = none ↔ ¬ p.edit.Ready s := by
  rw [effect?, Option.filter_eq_none_iff]
  constructor
  · intro h hs
    obtain ⟨t, ht, -, hl, -⟩ := Edit.result?_of_ready hr hs
    have he : t = s := by simpa using h t ht
    exact absurd (congrArg List.length he) (Nat.ne_of_gt hl)
  · intro h t ht
    simpa using Edit.result?_of_not_ready h ht

/-- An effect is a rewriting that makes the text longer and holds the new text. -/
theorem effect?_spec (hr : p.edit.Regular) (h : p.effect? s = some t) :
    p.edit.Ready s ∧ Rewrites p.edit.written.1 p.edit.written.2 s t ∧ s.length < t.length ∧
      p.edit.written.2 <:+: t := by
  have hs : p.edit.Ready s := by
    by_contra hn
    rw [(effect?_eq_none_iff hr).2 hn] at h
    cases h
  obtain ⟨t', ht', hw⟩ := Edit.result?_of_ready hr hs
  rw [effect?, ht', Option.filter_eq_some_iff, Option.some.injEq] at h
  exact ⟨hs, h.1 ▸ hw⟩

end Patch

end CliParity
