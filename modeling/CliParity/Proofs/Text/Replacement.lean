import CliParity.Proofs.Text.Rewriting

/-!
# First and last occurrences, and replacement from left to right

A cut is told by where an occurrence starts, for every text that is looked for, also one that is
empty or overlaps itself: `cutFirst?_eq_some_iff_firstAt`, `cutLast?_eq_some_iff_lastAt`.

`Replaced old new s t` says what a replacement does without the search: the first occurrence is
written over, and what is behind it is replaced in its turn (`replaced_iff`).

A text that is put into another is found where it was put in, unless what ends it and begins it
again goes on with what stood there before (`firstAt_of_borders`). So a rewriting is undone by the
opposite replacement, provided that the new text was nowhere before (`replaceAll_of_rewrites`).
-/

set_option autoImplicit false

namespace CliParity.Text

variable {p s t before after old new : List Char}

/-! ## Where a text occurs -/

/-- `p` stands in `s` between `before` and `after`, and nowhere earlier. -/
structure FirstAt (p s before after : List Char) : Prop where
  text : s = before ++ p ++ after
  first : ∀ b a, s = b ++ p ++ a → before.length ≤ b.length

/-- `p` stands in `s` between `before` and `after`, and nowhere later. -/
structure LastAt (p s before after : List Char) : Prop where
  text : s = before ++ p ++ after
  last : ∀ b a, s = b ++ p ++ a → b.length ≤ before.length

/-- Occurrences that start at the same place are the same. -/
theorem occurrence_inj {x y a b : List Char} (h : x ++ p ++ y = a ++ p ++ b)
    (hl : x.length = a.length) : x = a ∧ y = b := by
  obtain ⟨hxp, hy⟩ := List.append_inj h (by simp [hl])
  obtain ⟨hx, -⟩ := List.append_inj hxp hl
  exact ⟨hx, hy⟩

theorem FirstAt.unique {b a : List Char} (h : FirstAt p s before after) (h' : FirstAt p s b a) :
    before = b ∧ after = a :=
  occurrence_inj (h.text.symm.trans h'.text)
    (Nat.le_antisymm (h.first b a h'.text) (h'.first before after h.text))

theorem LastAt.unique {b a : List Char} (h : LastAt p s before after) (h' : LastAt p s b a) :
    before = b ∧ after = a :=
  occurrence_inj (h.text.symm.trans h'.text)
    (Nat.le_antisymm (h'.last before after h.text) (h.last b a h'.text))

theorem firstAt_of_cutFirst? (h : cutFirst? p s = some (before, after)) :
    FirstAt p s before after := by
  refine ⟨cutFirst?_eq_append h, ?_⟩
  induction s generalizing before with
  | nil =>
    obtain ⟨rfl, -⟩ : before = [] ∧ after = [] := by cases p <;> simp_all [cutFirst?]
    exact fun b _ _ => Nat.zero_le b.length
  | cons c s ih =>
    intro b a hs
    rw [cutFirst?] at h
    split at h
    · obtain ⟨rfl, -⟩ := Prod.mk.inj (Option.some.inj h)
      exact Nat.zero_le b.length
    · rename_i hn
      obtain ⟨⟨before', after'⟩, hc, he⟩ := Option.map_eq_some_iff.1 h
      obtain ⟨rfl, rfl⟩ := Prod.mk.inj he
      cases b with
      | nil => exact absurd (List.isPrefixOf_iff_prefix.2 ⟨a, hs.symm⟩) hn
      | cons d b => exact Nat.succ_le_succ (ih hc b a (List.cons.inj hs).2)

theorem lastAt_of_cutLast? (h : cutLast? p s = some (before, after)) :
    LastAt p s before after := by
  refine ⟨cutLast?_eq_append h, ?_⟩
  induction s generalizing before after with
  | nil =>
    intro b a hs
    have hb : b = [] := by simp_all
    rw [hb]
    exact Nat.zero_le _
  | cons c s ih =>
    intro b a hs
    cases b with
    | nil => exact Nat.zero_le _
    | cons d b =>
      -- the occurrence is one of the rest, so the last one is
      have hs' : s = b ++ p ++ a := (List.cons.inj hs).2
      obtain ⟨b', a', hc⟩ := exists_cutLast? ⟨b, a, hs'.symm⟩
      rw [cutLast?, hc] at h
      obtain ⟨rfl, rfl⟩ := Prod.mk.inj (Option.some.inj h)
      exact Nat.succ_le_succ (ih hc b a hs')

theorem cutFirst?_eq_some_iff_firstAt :
    cutFirst? p s = some (before, after) ↔ FirstAt p s before after := by
  refine ⟨firstAt_of_cutFirst?, fun h => ?_⟩
  obtain ⟨b, a, hc⟩ := exists_cutFirst? ⟨before, after, h.text.symm⟩
  obtain ⟨rfl, rfl⟩ := h.unique (firstAt_of_cutFirst? hc)
  exact hc

theorem cutLast?_eq_some_iff_lastAt :
    cutLast? p s = some (before, after) ↔ LastAt p s before after := by
  refine ⟨lastAt_of_cutLast?, fun h => ?_⟩
  obtain ⟨b, a, hc⟩ := exists_cutLast? ⟨before, after, h.text.symm⟩
  obtain ⟨rfl, rfl⟩ := h.unique (lastAt_of_cutLast? hc)
  exact hc

/-! ## Replacement without a search -/

/-- `t` is `s` with `new` for the occurrences of `old`, taken from left to right without overlap. -/
inductive Replaced (old new : List Char) : List Char → List Char → Prop
  | absent {s : List Char} (h : ¬ old <:+: s) : Replaced old new s s
  | first {s before after t : List Char} (h : FirstAt old s before after)
      (hr : Replaced old new after t) : Replaced old new s (before ++ new ++ t)

theorem replaced_iff (ho : old ≠ []) : Replaced old new s t ↔ t = replaceAll old new s := by
  constructor
  · intro h
    induction h with
    | absent h => exact (replaceAll_of_absent h).symm
    | first h _ ih => rw [replaceAll_of_cutFirst? ho (cutFirst?_eq_some_iff_firstAt.2 h), ih]
  · rintro rfl
    induction s using replace_induction ho with
    | none s h =>
      rw [replaceAll_of_absent h]
      exact .absent h
    | some before after _ hc ih =>
      rw [replaceAll_of_cutFirst? ho hc]
      exact .first (cutFirst?_eq_some_iff_firstAt.1 hc) ih

/-! ## The way back -/

/-- What ends `p` and begins it again, in part, begins `z` too. -/
def BordersBegin (p z : List Char) : Prop :=
  ∀ m, m ≠ [] → m ≠ p → m <:+ p → m <+: p → m <+: z

/-- Where `p` was put in for `z`, it is found, if it was nowhere up to there: an earlier occurrence
would end in a beginning of `p`, and so have been complete with a beginning of `z`. -/
theorem firstAt_of_borders {x z : List Char} (hb : BordersBegin p z)
    (hn : ¬ p <:+: x ++ z) (y : List Char) : FirstAt p (x ++ p ++ y) x y := by
  refine ⟨rfl, fun b a hs => Nat.le_of_not_lt fun hlt => hn ?_⟩
  rw [List.append_assoc, List.append_assoc] at hs
  obtain ⟨k, rfl, hk⟩ : ∃ k, x = b ++ k ∧ p ++ a = k ++ (p ++ y) := by
    rcases List.append_eq_append_iff.1 hs with ⟨k, rfl, -⟩ | h
    · rw [List.length_append] at hlt
      omega
    · exact h
  have hkne : k ≠ [] := by
    intro he
    simp [he] at hlt
  rcases List.append_eq_append_iff.1 hk with ⟨m, rfl, -⟩ | ⟨m, hpm, hy⟩
  · exact ⟨b, m ++ z, by simp⟩
  by_cases hm : m = []
  · rw [hpm, hm]
    exact ⟨b, z, by simp⟩
  have hmp : m ≠ p := by
    intro he
    exact hkne (List.append_left_eq_self.1 (he ▸ hpm).symm)
  have hlen : m.length ≤ p.length := by
    rw [hpm, List.length_append]
    omega
  have hprefix : m <+: p := List.prefix_of_prefix_length_le ⟨a, hy.symm⟩ ⟨y, rfl⟩ hlen
  obtain ⟨z', rfl⟩ := hb m hm hmp ⟨k, hpm.symm⟩ hprefix
  exact ⟨b, z', by simp [hpm]⟩

/-- Whether each border of `p` begins `z`. A border starts with the first character of `p`, and
behind it. -/
def bordersBegin (p z : List Char) : Bool :=
  match p with
  | [] => true
  | c :: v => !anyRest c (fun t => t.isPrefixOf v && !(c :: t).isPrefixOf z) v

theorem bordersBegin_iff {z : List Char} : bordersBegin p z = true ↔ BordersBegin p z := by
  cases p with
  | nil =>
    refine iff_of_true rfl fun m hm _ _ hpre => ?_
    exact absurd (List.prefix_nil.1 hpre) hm
  | cons c v =>
    rw [bordersBegin, Bool.not_eq_true', ← Bool.not_eq_true, anyRest_iff]
    simp only [Bool.and_eq_true, List.isPrefixOf_iff_prefix, Bool.not_eq_true', ← Bool.not_eq_true]
    constructor
    · intro h m hm hmp hs hpre
      obtain ⟨d, t, rfl⟩ := List.exists_cons_of_ne_nil hm
      obtain ⟨rfl, ht⟩ := List.cons_prefix_cons.1 hpre
      by_contra hz
      exact h ⟨t, (List.suffix_cons_iff.1 hs).resolve_left hmp, ht, hz⟩
    · intro h hborder
      obtain ⟨t, hs, ht, hz⟩ := hborder
      have hne : c :: t ≠ c :: v := by
        intro he
        have hle := hs.length_le
        rw [he, List.length_cons] at hle
        omega
      exact hz (h (c :: t) (List.cons_ne_nil c t) hne (hs.trans (List.suffix_cons c v))
        ((List.prefix_cons_inj c).2 ht))

instance : DecidableRel BordersBegin := fun p z =>
  decidable_of_iff (bordersBegin p z = true) bordersBegin_iff

theorem replaceAll_of_firstAt (hp : p ≠ []) (h : FirstAt p s before after)
    (hn : ¬ p <:+: after) : replaceAll p new s = before ++ new ++ after := by
  rw [replaceAll_of_cutFirst? hp (cutFirst?_eq_some_iff_firstAt.2 h), replaceAll_of_absent hn]

/-- A rewriting is undone by the opposite replacement. -/
theorem replaceAll_of_rewrites (hnew : new ≠ []) (hb : BordersBegin new old)
    (hw : Rewrites old new s t) (hn : ¬ new <:+: s) : replaceAll new old t = s := by
  induction hw with
  | refl s => exact replaceAll_of_absent hn
  | @step before s t _ ih =>
    have hfront : ¬ new <:+: before ++ old := fun h => hn (h.trans ⟨[], s, by simp⟩)
    have hback : ¬ new <:+: s := fun h => hn (h.trans ⟨before ++ old, [], by simp⟩)
    have hc := cutFirst?_eq_some_iff_firstAt.2 (firstAt_of_borders hb hfront t)
    rw [replaceAll_of_cutFirst? hnew hc, ih hback]

end CliParity.Text
