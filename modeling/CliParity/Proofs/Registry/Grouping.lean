import CliParity.Proofs.OrderedMap
import CliParity.Registry.Basic
import Mathlib.Data.List.Induction
import Mathlib.Data.String.Basic

/-!
# Commands by category

The group of a category holds the commands of that category in order (`mem_groupByCategory_iff`),
and the categories with a group are those of the commands (`mem_keys_groupByCategory`). For commands
in the order of their category's label the groups are in that order too
(`keys_groupByCategory_sorted`), and one after the other they are the commands again
(`flatMap_groupByCategory`).
-/

set_option autoImplicit false

namespace CliParity

theorem Category.label_injective : Function.Injective Category.label := by
  intro a b h
  cases a <;> cases b <;> first | rfl | simp [label] at h

namespace Registry

/-- The commands of a category. -/
def ofCategory (category : Category) (commands : List Command) : List Command :=
  commands.filter (·.category = category)

/-- The commands are in the order of their category's label. -/
def SortedByLabel (commands : List Command) : Prop :=
  commands.Pairwise fun a b => a.category.label ≤ b.category.label

/-! ## The groups -/

section
variable {commands : List Command} {category : Category}

theorem groupByCategory_concat (commands : List Command) (c : Command) :
    groupByCategory (commands ++ [c]) = (groupByCategory commands).insert c.category
      (((groupByCategory commands).get? c.category).getD [] ++ [c]) := by
  rw [groupByCategory, List.foldl_append]
  rfl

theorem get?_groupByCategory (commands : List Command) (category : Category) :
    (groupByCategory commands).get? category =
      if ofCategory category commands = [] then none else some (ofCategory category commands) := by
  induction commands using List.reverseRecOn with
  | nil => rfl
  | append_singleton commands c ih =>
    rw [groupByCategory_concat, OrderedMap.get?_insert]
    by_cases h : category = c.category
    · subst h
      have hg : ((groupByCategory commands).get? c.category).getD [] =
          ofCategory c.category commands := by
        rw [ih]
        split
        · rename_i hn
          rw [hn, Option.getD_none]
        · rfl
      have hc : ofCategory c.category (commands ++ [c]) =
          ofCategory c.category commands ++ [c] := by
        simp [ofCategory]
      rw [if_pos rfl, hg, hc, if_neg (by simp)]
    · have hc : ofCategory category (commands ++ [c]) = ofCategory category commands := by
        simp [ofCategory, Ne.symm h]
      rw [if_neg h, ih, hc]

theorem mem_groupByCategory_iff {group : List Command} :
    (category, group) ∈ (groupByCategory commands).entries ↔
      group ≠ [] ∧ group = ofCategory category commands := by
  rw [OrderedMap.mem_entries_iff, get?_groupByCategory]
  split
  · rename_i h
    simp [h]
  · rename_i h
    rw [Option.some.injEq]
    exact ⟨fun he => ⟨he ▸ h, he.symm⟩, fun he => he.2.symm⟩

theorem mem_keys_groupByCategory :
    category ∈ (groupByCategory commands).keys ↔ ∃ c ∈ commands, c.category = category := by
  have hn : ofCategory category commands ≠ [] ↔ ∃ c ∈ commands, c.category = category := by
    simp [ofCategory, List.filter_eq_nil_iff]
  rw [← hn]
  constructor
  · intro h
    obtain ⟨⟨_, group⟩, hm, rfl⟩ := List.mem_map.1 h
    obtain ⟨hg, rfl⟩ := mem_groupByCategory_iff.1 hm
    exact hg
  · intro h
    exact List.mem_map.2 ⟨_, mem_groupByCategory_iff.2 ⟨h, rfl⟩, rfl⟩

theorem entries_groupByCategory (commands : List Command) :
    (groupByCategory commands).entries = (groupByCategory commands).keys.map fun category =>
      (category, ofCategory category commands) := by
  rw [OrderedMap.keys, List.map_map]
  refine (List.map_id _).symm.trans (List.map_congr_left ?_)
  rintro ⟨category, group⟩ h
  obtain ⟨-, rfl⟩ := mem_groupByCategory_iff.1 h
  rfl

end

/-! ## Sorted commands -/

section
variable {commands : List Command}

theorem keys_groupByCategory_sorted (h : SortedByLabel commands) :
    (groupByCategory commands).keys.Pairwise fun a b => a.label < b.label := by
  induction commands using List.reverseRecOn with
  | nil => exact List.Pairwise.nil
  | append_singleton commands c ih =>
    obtain ⟨hs, -, hc⟩ := List.pairwise_append.1 h
    rw [groupByCategory_concat, OrderedMap.keys_insert]
    split
    · exact ih hs
    · rename_i hn
      refine List.pairwise_append.2 ⟨ih hs, List.pairwise_singleton _ _, fun k hk d hd => ?_⟩
      obtain rfl := List.mem_singleton.1 hd
      obtain ⟨b, hb, rfl⟩ := mem_keys_groupByCategory.1 hk
      refine lt_of_le_of_ne (hc b hb c List.mem_cons_self) fun he => hn ?_
      exact Category.label_injective he ▸ hk

/-- If all that has a property comes first, a list is what has it and then what has not. -/
theorem filter_append_filter_not {α : Type} {p : α → Bool} {l : List α}
    (h : l.Pairwise fun a b => p b → p a) : l.filter p ++ l.filter (fun a => !p a) = l := by
  induction l with
  | nil => rfl
  | cons a l ih =>
    obtain ⟨ha, hl⟩ := List.pairwise_cons.1 h
    by_cases hp : p a
    · simp [hp, ih hl]
    · have hn : ∀ b ∈ l, ¬ p b := fun b hb hpb => hp (ha b hb hpb)
      have hf : l.filter p = [] := List.filter_eq_nil_iff.2 hn
      have ht : l.filter (fun b => !p b) = l := List.filter_eq_self.2 (by simpa using hn)
      simp [hp, hf, ht]

/-- The commands of some categories, one category after the other, in order of label. -/
theorem flatMap_ofCategory {categories : List Category}
    (hk : categories.Pairwise fun a b => a.label < b.label) (h : SortedByLabel commands)
    (hc : ∀ c ∈ commands, c.category ∈ categories) :
    categories.flatMap (ofCategory · commands) = commands := by
  induction categories generalizing commands with
  | nil =>
    cases commands with
    | nil => rfl
    | cons c _ => exact absurd (hc c List.mem_cons_self) List.not_mem_nil
  | cons k categories ih =>
    obtain ⟨hlt, hk⟩ := List.pairwise_cons.1 hk
    -- the commands of the first category stand in front of the others
    have hfirst : commands.Pairwise fun a b =>
        decide (b.category = k) → decide (a.category = k) := by
      refine h.imp_of_mem fun {a b} ha _ hab hb => ?_
      rcases List.mem_cons.1 (hc a ha) with he | hm
      · exact decide_eq_true he
      · rw [of_decide_eq_true hb] at hab
        exact absurd (hlt _ hm) (not_lt_of_ge hab)
    have hrest : ∀ c ∈ commands.filter (fun c => !decide (c.category = k)),
        c.category ∈ categories := by
      intro c hm
      obtain ⟨hm, hn⟩ := List.mem_filter.1 hm
      exact (List.mem_cons.1 (hc c hm)).resolve_left (by simpa using hn)
    -- without them the other categories have the same commands, so the hypothesis applies
    have hsame : ∀ j ∈ categories, ofCategory j commands =
        ofCategory j (commands.filter fun c => !decide (c.category = k)) := by
      intro j hj
      rw [ofCategory, ofCategory, List.filter_filter]
      refine List.filter_congr fun c _ => ?_
      by_cases he : c.category = j
      · have hne : j ≠ k := fun hjk => absurd (hlt j hj) (by simp [hjk])
        simp [he, hne]
      · simp [he]
    rw [List.flatMap_cons, List.flatMap_congr hsame, ih hk (h.filter _) hrest]
    exact filter_append_filter_not hfirst

/-- The groups, one after the other, are the commands. -/
theorem flatMap_groupByCategory (h : SortedByLabel commands) :
    (groupByCategory commands).entries.flatMap (·.2) = commands := by
  rw [entries_groupByCategory, List.flatMap_map]
  exact flatMap_ofCategory (keys_groupByCategory_sorted h) h fun c hc =>
    mem_keys_groupByCategory.2 ⟨c, hc, rfl⟩

end

end Registry

end CliParity
