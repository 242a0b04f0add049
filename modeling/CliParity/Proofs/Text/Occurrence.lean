import CliParity.Text.Search
import Mathlib.Data.List.Infix

/-!
# Occurrences of a text in another

A search is told by the infix relation: `contains_iff`, `cutFirst?_eq_some_iff` and
`cutLast?_eq_some_iff`.

Two texts that occur in a third one lie beside one another, or one within the other, or the end of
one is the beginning of the other (`occurrence_cases`). Texts of which the last never happens
(`Overlaps`) and of which the first does not hold the second are `Apart`: where `u` is written
into a text, no occurrence of `p` arises but those within `u` (`Apart.infix_cases`). Texts
that are `Separate` do not lie within one another either way, so each occurrence of the one is
entirely in front of an occurrence of the other or behind it (`Separate.occurrence_cases`).
-/

set_option autoImplicit false

namespace CliParity.Text

variable {p s u v : List Char}

/-! ## Searches -/

theorem cutFirst?_isSome_iff : (cutFirst? p s).isSome ↔ p <:+: s := by
  induction s with
  | nil => cases p <;> simp [cutFirst?]
  | cons c s ih =>
    rw [cutFirst?, List.infix_cons_iff]
    by_cases hp : p.isPrefixOf (c :: s)
    · simp [hp, List.isPrefixOf_iff_prefix.1 hp]
    · have hn : ¬ p <+: c :: s := fun h => hp (List.isPrefixOf_iff_prefix.2 h)
      simp [hp, hn, ih]

theorem contains_iff : contains s p = true ↔ p <:+: s := cutFirst?_isSome_iff

theorem exists_cutFirst? (h : p <:+: s) : ∃ before after, cutFirst? p s = some (before, after) := by
  obtain ⟨⟨before, after⟩, hc⟩ := Option.isSome_iff_exists.1 (cutFirst?_isSome_iff.2 h)
  exact ⟨before, after, hc⟩

theorem cutLast?_isSome_iff : (cutLast? p s).isSome ↔ p <:+: s := by
  induction s with
  | nil => cases p <;> simp [cutLast?]
  | cons c s ih =>
    rw [cutLast?, List.infix_cons_iff]
    cases hs : cutLast? p s with
    | some ba => simp [ih.1 (by simp [hs])]
    | none =>
      have hn : ¬ p <:+: s := fun h => by simpa [hs] using ih.2 h
      by_cases hp : p.isPrefixOf (c :: s)
      · simp [hp, List.isPrefixOf_iff_prefix.1 hp]
      · have hn' : ¬ p <+: c :: s := fun h => hp (List.isPrefixOf_iff_prefix.2 h)
        simp [hp, hn, hn']

theorem exists_cutLast? (h : p <:+: s) : ∃ before after, cutLast? p s = some (before, after) := by
  obtain ⟨⟨before, after⟩, hc⟩ := Option.isSome_iff_exists.1 (cutLast?_isSome_iff.2 h)
  exact ⟨before, after, hc⟩

theorem cutLast?_eq_none_iff : cutLast? p s = none ↔ ¬ p <:+: s := by
  rw [← cutLast?_isSome_iff, Bool.not_eq_true, Option.isSome_eq_false_iff,
    Option.isNone_iff_eq_none]

/-- Nothing in front of the first occurrence is an occurrence. -/
theorem not_infix_of_cutFirst? {before after : List Char} (hp : p ≠ [])
    (h : cutFirst? p s = some (before, after)) : ¬ p <:+: before := by
  induction s generalizing before with
  | nil => cases p <;> simp_all [cutFirst?]
  | cons c s ih =>
    rw [cutFirst?] at h
    split at h
    · obtain ⟨rfl, rfl⟩ := Prod.mk.injEq .. ▸ Option.some.injEq .. ▸ h
      simpa using hp
    · rename_i hn
      obtain ⟨⟨b, a⟩, hb, he⟩ := Option.map_eq_some_iff.1 h
      obtain ⟨rfl, rfl⟩ := Prod.mk.injEq .. ▸ he
      rw [List.infix_cons_iff]
      rintro (hc | hc)
      · rw [cutFirst?_eq_append hb, List.append_assoc] at hn
        exact hn (List.isPrefixOf_iff_prefix.2 (hc.trans ⟨p ++ a, rfl⟩))
      · exact ih hb hc

/-- Nothing behind the last occurrence is an occurrence. -/
theorem not_infix_of_cutLast? {before after : List Char} (hp : p ≠ [])
    (h : cutLast? p s = some (before, after)) : ¬ p <:+: after := by
  induction s generalizing before after with
  | nil => cases p <;> simp_all [cutLast?]
  | cons c s ih =>
    rw [cutLast?] at h
    split at h
    · rename_i b a hb
      obtain ⟨rfl, rfl⟩ := Prod.mk.injEq .. ▸ Option.some.injEq .. ▸ h
      exact ih hb
    · rename_i hn
      split at h
      · obtain ⟨rfl, rfl⟩ := Prod.mk.injEq .. ▸ Option.some.injEq .. ▸ h
        obtain ⟨d, q, rfl⟩ := List.exists_cons_of_ne_nil hp
        rw [List.length_cons, List.drop_succ_cons]
        exact fun hc => cutLast?_eq_none_iff.1 hn (hc.trans (List.drop_suffix _ s).isInfix)
      · simp at h

/-! ## How two occurrences lie -/

/-- The end of `u` is the beginning of `v`, in part. -/
def Overlaps (u v : List Char) : Prop := ∃ x, x ≠ [] ∧ x ≠ v ∧ x <:+ u ∧ x <+: v

/-- An occurrence of `v` that starts no earlier than one of `u` does. -/
theorem later_occurrence_cases {y m b : List Char} (h : u ++ y = m ++ (v ++ b))
    (huv : ¬ Overlaps u v) :
    (∃ k, m = u ++ k ∧ y = k ++ v ++ b) ∨ ∃ k, u = m ++ v ++ k ∧ b = k ++ y := by
  rcases List.append_eq_append_iff.1 h with ⟨k, hm, hy⟩ | ⟨k, hu, hv⟩
  · exact .inl ⟨k, hm, by simpa using hy⟩
  rcases List.append_eq_append_iff.1 hv with ⟨j, rfl, hb⟩ | ⟨j, hj, hy⟩
  · exact .inr ⟨j, by simpa using hu, hb⟩
  -- here `k` ends `u` and begins `v`
  by_cases hk : k = []
  · subst hk
    exact .inl ⟨[], by simpa using hu.symm, by simp [hy, ← show v = j by simpa using hj]⟩
  by_cases hkv : k = v
  · subst hkv
    exact .inr ⟨[], by simpa using hu, by simpa [show j = [] by simpa using hj] using hy.symm⟩
  · exact absurd ⟨k, hk, hkv, ⟨m, hu.symm⟩, ⟨j, hj.symm⟩⟩ huv

/-- Two occurrences without overlap: `v` lies in front of `u`, behind it, within it, or around
it. -/
theorem occurrence_cases {x y a b : List Char} (h : x ++ u ++ y = a ++ v ++ b)
    (huv : ¬ Overlaps u v) (hvu : ¬ Overlaps v u) :
    (∃ m, x = a ++ v ++ m ∧ b = m ++ u ++ y) ∨ (∃ m, a = x ++ u ++ m ∧ y = m ++ v ++ b) ∨
      (∃ m k, u = m ++ v ++ k ∧ a = x ++ m ∧ b = k ++ y) ∨
        ∃ m k, v = m ++ u ++ k ∧ x = a ++ m ∧ y = k ++ b := by
  rw [List.append_assoc, List.append_assoc] at h
  rcases List.append_eq_append_iff.1 h with ⟨m, ha, hm⟩ | ⟨m, hx, hm⟩
  · rcases later_occurrence_cases hm huv with ⟨k, rfl, hy⟩ | ⟨k, hu, hb⟩
    · exact .inr (.inl ⟨k, by simpa using ha, hy⟩)
    · exact .inr (.inr (.inl ⟨m, k, hu, ha, hb⟩))
  · rcases later_occurrence_cases hm hvu with ⟨k, rfl, hb⟩ | ⟨k, hv, hy⟩
    · exact .inl ⟨k, by simpa using hx, hb⟩
    · exact .inr (.inr (.inr ⟨m, k, hv, hx, hy⟩))

/-- An occurrence of `v` lies within one of `u`, or beside it. -/
structure Apart (u v : List Char) : Prop where
  not_within : ¬ u <:+: v
  not_overlaps : ¬ Overlaps u v
  not_overlaps_symm : ¬ Overlaps v u

namespace Apart

theorem ne_nil (h : Apart u v) : u ≠ [] := by
  rintro rfl
  exact h.not_within List.nil_infix

theorem infix_cases {x y : List Char} (h : Apart u p) (hp : p <:+: x ++ u ++ y) :
    p <:+: x ∨ p <:+: u ∨ p <:+: y := by
  obtain ⟨a, b, hab⟩ := hp
  rcases occurrence_cases hab.symm h.not_overlaps h.not_overlaps_symm with
    ⟨m, rfl, -⟩ | ⟨m, -, rfl⟩ | ⟨m, k, rfl, -⟩ | ⟨m, k, hk, -⟩
  · exact .inl ⟨a, m, rfl⟩
  · exact .inr (.inr ⟨m, b, rfl⟩)
  · exact .inr (.inl ⟨m, k, rfl⟩)
  · exact absurd ⟨m, k, hk.symm⟩ h.not_within

end Apart

/-- Occurrences of the two lie beside one another. -/
structure Separate (u v : List Char) : Prop extends Apart u v where
  not_holds : ¬ v <:+: u

namespace Separate

theorem occurrence_cases {x y a b : List Char} (h : Separate u v)
    (he : x ++ u ++ y = a ++ v ++ b) :
    (∃ m, x = a ++ v ++ m ∧ b = m ++ u ++ y) ∨ ∃ m, a = x ++ u ++ m ∧ y = m ++ v ++ b := by
  rcases Text.occurrence_cases he h.not_overlaps h.not_overlaps_symm with
    hb | ha | ⟨m, k, hk, -⟩ | ⟨m, k, hk, -⟩
  · exact .inl hb
  · exact .inr ha
  · exact absurd ⟨m, k, hk.symm⟩ h.not_holds
  · exact absurd ⟨m, k, hk.symm⟩ h.not_within

theorem infix_cases {x y : List Char} (h : Separate u p) (hp : p <:+: x ++ u ++ y) :
    p <:+: x ∨ p <:+: y := by
  rcases h.toApart.infix_cases hp with hp | hp | hp
  · exact .inl hp
  · exact absurd hp h.not_holds
  · exact .inr hp

end Separate

/-! ## Lines -/

/-- A text without `c` is on one side of where `c` stands. -/
theorem infix_append_cons_iff {c : Char} {a b : List Char} (hc : c ∉ p) :
    p <:+: a ++ c :: b ↔ p <:+: a ∨ p <:+: b := by
  constructor
  · intro h
    rcases List.infix_append_iff_ne_nil.1 h with ha | hb | ⟨x, y, -, hy, rfl, -, r, hr⟩
    · exact .inl ha
    · rcases List.infix_cons_iff.1 hb with hb | hb
      · rcases List.prefix_cons_iff.1 hb with rfl | ⟨t, rfl, -⟩
        · exact .inl List.nil_infix
        · exact absurd List.mem_cons_self hc
      · exact .inr hb
    · obtain ⟨d, y, rfl⟩ := List.exists_cons_of_ne_nil hy
      obtain ⟨rfl, -⟩ := List.cons.inj hr
      exact absurd (List.mem_append_right x List.mem_cons_self) hc
  · rintro (h | h)
    · exact h.trans (List.prefix_append a _).isInfix
    · exact h.trans ⟨a ++ [c], [], by simp⟩

/-- A text does not start in `a` if `a` lacks its first character. -/
theorem infix_append_iff_right {a b : List Char} (h : ∃ c ∈ p.head?, c ∉ a) :
    p <:+: a ++ b ↔ p <:+: b := by
  obtain ⟨c, hc, ha⟩ := h
  refine ⟨fun hp => ?_, fun hp => hp.trans (List.suffix_append a b).isInfix⟩
  obtain ⟨q, rfl⟩ := List.head?_eq_some_iff.1 hc
  rcases List.infix_append_iff_ne_nil.1 hp with hp | hp | ⟨x, y, hx, -, he, hxa, -⟩
  · exact absurd (hp.subset List.mem_cons_self) ha
  · exact hp
  · obtain ⟨d, x, rfl⟩ := List.exists_cons_of_ne_nil hx
    obtain ⟨rfl, -⟩ := List.cons.inj he
    exact absurd (hxa.subset List.mem_cons_self) ha

/-- A text does not reach from `a` into `b` if `b` lacks a character of it and begins with none of
those behind that one. -/
theorem infix_append_iff_left {a b q r : List Char} {c : Char} (he : p = q ++ c :: r) (hc : c ∉ b)
    (hr : ∀ d ∈ b.head?, d ∉ r) : p <:+: a ++ b ↔ p <:+: a := by
  refine ⟨fun hp => ?_, fun hp => hp.trans (List.prefix_append a b).isInfix⟩
  subst he
  rcases List.infix_append_iff_ne_nil.1 hp with hp | hp | ⟨x, y, -, hy, he, -, hyb⟩
  · exact hp
  · exact absurd (hp.subset (List.mem_append_right q List.mem_cons_self)) hc
  · obtain ⟨d, y, rfl⟩ := List.exists_cons_of_ne_nil hy
    obtain ⟨t, rfl⟩ := hyb
    rcases List.append_eq_append_iff.1 he with ⟨k, rfl, hk⟩ | ⟨k, rfl, hk⟩
    · cases k with
      | nil =>
        obtain ⟨rfl, -⟩ := List.cons.inj hk
        exact absurd List.mem_cons_self hc
      | cons e k =>
        obtain ⟨-, rfl⟩ := List.cons.inj hk
        exact absurd (List.mem_append_right k List.mem_cons_self) (hr d rfl)
    · rw [hk] at hc
      simp at hc

/-- Where a line ends, no text straddles that has a line feed at most in front. -/
theorem infix_cases_of_line {a b : List Char} (hp : '\n' ∉ p.tail)
    (hb : ∀ c ∈ b.head?, c = '\n') (h : p <:+: a ++ b) : p <:+: a ∨ p <:+: b := by
  rcases List.infix_append_iff_ne_nil.1 h with ha | hb' | ⟨x, y, hx, hy, rfl, -, hyb⟩
  · exact .inl ha
  · exact .inr hb'
  · obtain ⟨c, y, rfl⟩ := List.exists_cons_of_ne_nil hy
    obtain ⟨d, x, rfl⟩ := List.exists_cons_of_ne_nil hx
    obtain ⟨r, rfl⟩ := hyb
    obtain rfl : c = '\n' := hb c rfl
    exact absurd (List.mem_append_right x List.mem_cons_self) hp

/-- What starts with `c` is behind a text without `c`. -/
theorem eq_append_of_not_mem {c : Char} {a b rest t : List Char} (ha : c ∉ a)
    (hb : b.head? = some c) (h : a ++ rest = t ++ b) : ∃ m, t = a ++ m ∧ rest = m ++ b := by
  rcases List.append_eq_append_iff.1 h with ⟨m, ht, hr⟩ | ⟨k, rfl, hk⟩
  · exact ⟨m, ht, hr⟩
  cases k with
  | nil => exact ⟨[], by simp, by simpa using hk.symm⟩
  | cons d k =>
    obtain rfl : d = c := by simpa [hk] using hb
    exact absurd (List.mem_append_right t List.mem_cons_self) ha

/-- A text is cut at its first `c` in one way. -/
theorem append_cons_inj {c : Char} {a b t t' : List Char} (ha : c ∉ a) (hb : c ∉ b)
    (h : a ++ c :: t = b ++ c :: t') : a = b ∧ t = t' := by
  obtain ⟨m, rfl, hm⟩ := eq_append_of_not_mem ha rfl h
  cases m with
  | nil => exact ⟨by simp, (List.cons.inj hm).2⟩
  | cons d m =>
    obtain ⟨rfl, -⟩ := List.cons.inj hm
    exact absurd (List.mem_append_right a List.mem_cons_self) hb

/-- A text without `c` that another begins with ends in front of its `c`. -/
theorem prefix_append_cons_iff {p a b : List Char} {c : Char} (hc : c ∉ p) :
    p <+: a ++ c :: b ↔ p <+: a := by
  constructor
  · rintro ⟨t, ht⟩
    obtain ⟨m, rfl, -⟩ := eq_append_of_not_mem hc rfl ht
    exact List.prefix_append p m
  · exact fun h => h.trans (List.prefix_append a _)

/-! ## The only cut -/

/-- Two occurrences of a text that does not overlap itself are one, or lie beside one another. -/
theorem self_occurrence_cases {x y a b : List Char} (h : ¬ Overlaps p p)
    (he : x ++ p ++ y = a ++ p ++ b) :
    (∃ m, x = a ++ p ++ m ∧ b = m ++ p ++ y) ∨ (∃ m, a = x ++ p ++ m ∧ y = m ++ p ++ b) ∨
      (a = x ∧ b = y) := by
  have hnil : ∀ {m k : List Char}, p = m ++ p ++ k → m = [] ∧ k = [] := fun hp => by
    have := congrArg List.length hp
    simp only [List.length_append] at this
    exact ⟨List.length_eq_zero_iff.1 (by omega), List.length_eq_zero_iff.1 (by omega)⟩
  rcases occurrence_cases he h h with hb | ha | ⟨m, k, hp, rfl, rfl⟩ | ⟨m, k, hp, rfl, rfl⟩
  · exact .inl hb
  · exact .inr (.inl ha)
  · obtain ⟨rfl, rfl⟩ := hnil hp
    exact .inr (.inr (by simp))
  · obtain ⟨rfl, rfl⟩ := hnil hp
    exact .inr (.inr (by simp))

theorem cutFirst?_eq_some_iff {before after : List Char} (hp : p ≠ []) (ho : ¬ Overlaps p p) :
    cutFirst? p s = some (before, after) ↔ s = before ++ p ++ after ∧ ¬ p <:+: before := by
  refine ⟨fun h => ⟨cutFirst?_eq_append h, not_infix_of_cutFirst? hp h⟩, ?_⟩
  rintro ⟨hs, hn⟩
  obtain ⟨b, a, hc⟩ := exists_cutFirst? ⟨before, after, hs.symm⟩
  have hn' := not_infix_of_cutFirst? hp hc
  rcases self_occurrence_cases ho (hs.symm.trans (cutFirst?_eq_append hc)) with
    ⟨m, rfl, -⟩ | ⟨m, rfl, -⟩ | ⟨rfl, rfl⟩
  · exact absurd ⟨b, m, rfl⟩ hn
  · exact absurd ⟨before, m, rfl⟩ hn'
  · exact hc

theorem cutLast?_eq_some_iff {before after : List Char} (hp : p ≠ []) (ho : ¬ Overlaps p p) :
    cutLast? p s = some (before, after) ↔ s = before ++ p ++ after ∧ ¬ p <:+: after := by
  refine ⟨fun h => ⟨cutLast?_eq_append h, not_infix_of_cutLast? hp h⟩, ?_⟩
  rintro ⟨hs, hn⟩
  obtain ⟨b, a, hc⟩ := exists_cutLast? ⟨before, after, hs.symm⟩
  have hn' := not_infix_of_cutLast? hp hc
  rcases self_occurrence_cases ho (hs.symm.trans (cutLast?_eq_append hc)) with
    ⟨m, -, rfl⟩ | ⟨m, -, rfl⟩ | ⟨rfl, rfl⟩
  · exact absurd ⟨m, after, rfl⟩ hn'
  · exact absurd ⟨m, a, rfl⟩ hn
  · exact hc

/-! ## Deciding -/

/-- Whether `x` stands somewhere in a text with a rest that `f` accepts. By the recursor, which
evaluation unfolds more quickly than a recursion. -/
def anyRest (x : Char) (f : List Char → Bool) (s : List Char) : Bool :=
  List.rec false (fun c s found => bif c == x then f s || found else found) s

theorem anyRest_cons (x c : Char) (f : List Char → Bool) (s : List Char) :
    anyRest x f (c :: s) = bif c == x then f s || anyRest x f s else anyRest x f s := rfl

theorem anyRest_iff {x : Char} {f : List Char → Bool} :
    anyRest x f s = true ↔ ∃ t, x :: t <:+ s ∧ f t = true := by
  induction s with
  | nil => simp [anyRest]
  | cons c s ih =>
    have hcons : anyRest x f (c :: s) = true ↔ (c = x ∧ f s = true) ∨ anyRest x f s = true := by
      rw [anyRest_cons]
      by_cases h : c = x <;> simp [h]
    rw [hcons, ih]
    constructor
    · rintro (⟨rfl, hf⟩ | ⟨t, ht, hf⟩)
      · exact ⟨s, List.suffix_refl _, hf⟩
      · exact ⟨t, ht.trans (List.suffix_cons c s), hf⟩
    · rintro ⟨t, ht, hf⟩
      rcases List.suffix_cons_iff.1 ht with he | ht
      · obtain ⟨rfl, rfl⟩ := List.cons.inj he
        exact .inl ⟨rfl, hf⟩
      · exact .inr ⟨t, ht, hf⟩

/-- Whether `p` occurs in `s`. -/
def occursIn (p s : List Char) : Bool :=
  match p with
  | [] => true
  | c :: p => anyRest c p.isPrefixOf s

/-- Whether the end of `u` is the beginning of `v`, in part. -/
def overlapping (u v : List Char) : Bool :=
  match v with
  | [] => false
  | c :: v => anyRest c (fun t => t.isPrefixOf v && decide (t ≠ v)) u

/-- Whether `v` begins somewhere in `u` and goes on until one of them ends. -/
def meeting (u v : List Char) : Bool :=
  match v with
  | [] => true
  | c :: v => anyRest c (fun t => v.isPrefixOf t || t.isPrefixOf v) u

theorem occursIn_iff : occursIn p s = true ↔ p <:+: s := by
  cases p with
  | nil => simp [occursIn]
  | cons c p =>
    rw [occursIn, anyRest_iff, List.infix_iff_prefix_suffix]
    constructor
    · rintro ⟨t, ht, hp⟩
      exact ⟨c :: t, (List.prefix_cons_inj c).2 (List.isPrefixOf_iff_prefix.1 hp), ht⟩
    · rintro ⟨t, ⟨r, rfl⟩, ht⟩
      exact ⟨p ++ r, ht, List.isPrefixOf_iff_prefix.2 (List.prefix_append p r)⟩

theorem overlapping_iff : overlapping u v = true ↔ Overlaps u v := by
  cases v with
  | nil =>
    refine ⟨fun h => by simp [overlapping] at h, ?_⟩
    rintro ⟨x, hx, -, -, h⟩
    exact absurd (List.prefix_nil.1 h) hx
  | cons c v =>
    simp only [overlapping, anyRest_iff, Bool.and_eq_true, List.isPrefixOf_iff_prefix,
      decide_eq_true_eq]
    constructor
    · rintro ⟨t, ht, hp, hn⟩
      exact ⟨c :: t, List.cons_ne_nil c t, by simpa using hn, ht, (List.prefix_cons_inj c).2 hp⟩
    · rintro ⟨x, hx, hn, hs, hp⟩
      obtain ⟨d, t, rfl⟩ := List.exists_cons_of_ne_nil hx
      obtain ⟨rfl, hv⟩ := List.cons_prefix_cons.1 hp
      exact ⟨t, hs, hv, by simpa using hn⟩

theorem meeting_iff : meeting u v = true ↔ v <:+: u ∨ Overlaps u v := by
  cases v with
  | nil => simp [meeting]
  | cons c v =>
    rw [← occursIn_iff, ← overlapping_iff, occursIn, overlapping, meeting]
    simp only [anyRest_iff, Bool.or_eq_true, Bool.and_eq_true, decide_eq_true_eq,
      List.isPrefixOf_iff_prefix]
    constructor
    · rintro ⟨t, ht, hp | hp⟩
      · exact .inl ⟨t, ht, hp⟩
      · by_cases he : t = v
        · exact .inl ⟨t, ht, he ▸ List.prefix_refl t⟩
        · exact .inr ⟨t, ht, hp, he⟩
    · rintro (⟨t, ht, hp⟩ | ⟨t, ht, hp, -⟩)
      · exact ⟨t, ht, .inl hp⟩
      · exact ⟨t, ht, .inr hp⟩

instance : DecidableRel Overlaps := fun u v =>
  decidable_of_iff (overlapping u v = true) overlapping_iff

instance : DecidableRel Apart := fun u v =>
  decidable_of_iff (meeting v u = false ∧ overlapping u v = false) <| by
    simp only [← Bool.not_eq_true, meeting_iff, overlapping_iff, not_or]
    exact ⟨fun ⟨⟨h₁, h₂⟩, h₃⟩ => ⟨h₁, h₃, h₂⟩, fun ⟨h₁, h₂, h₃⟩ => ⟨⟨h₁, h₃⟩, h₂⟩⟩

instance : DecidableRel Separate := fun u v =>
  decidable_of_iff (meeting u v = false ∧ meeting v u = false) <| by
    simp only [← Bool.not_eq_true, meeting_iff, not_or]
    exact ⟨fun ⟨⟨h₁, h₂⟩, h₃, h₄⟩ => ⟨⟨h₃, h₂, h₄⟩, h₁⟩,
      fun ⟨⟨h₁, h₂, h₃⟩, h₄⟩ => ⟨⟨h₄, h₂⟩, h₁, h₃⟩⟩

end CliParity.Text
