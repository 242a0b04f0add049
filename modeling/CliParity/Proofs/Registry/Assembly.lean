import CliParity.Proofs.Dispatcher.Names
import CliParity.Proofs.Registry.Grouping
import Mathlib.Algebra.Ring.Nat
import Mathlib.Data.Prod.Lex

/-!
# What an assembled registry holds

A registry shows its commands five times: as a list, by their number, by their categories, in
groups, and by the size of the groups. `Registry.Arranges r commands` says that the five agree, and
that the list is `commands` in order. It holds of every assembled registry, and no two commands of a
dispatcher's registry are listed alike (`assemble_arranges`).
-/

set_option autoImplicit false

namespace CliParity

/-! ## The order of the list -/

namespace Command

/-- What commands are listed by: the label of the category, then the name. -/
def listingKey (c : Command) : String ×ₗ String := toLex (c.category.label, c.name)

variable {a b c : Command}

theorem listedBefore_iff : listedBefore a b = true ↔ a.listingKey ≤ b.listingKey := by
  simp [listedBefore, listingKey, Prod.Lex.le_iff]

theorem listedBefore_trans (hab : listedBefore a b = true) (hbc : listedBefore b c = true) :
    listedBefore a c = true :=
  listedBefore_iff.2 ((listedBefore_iff.1 hab).trans (listedBefore_iff.1 hbc))

theorem listedBefore_total (a b : Command) : (listedBefore a b || listedBefore b a) = true := by
  rw [Bool.or_eq_true, listedBefore_iff, listedBefore_iff]
  exact le_total _ _

theorem label_le_of_listingKey_le (h : a.listingKey ≤ b.listingKey) :
    a.category.label ≤ b.category.label := by
  rcases Prod.Lex.le_iff.1 h with h | h
  · exact le_of_lt h
  · exact le_of_eq h.1

theorem name_eq_of_listingKey_eq (h : a.listingKey = b.listingKey) : a.name = b.name :=
  congrArg (fun k => (ofLex k).2) h

end Command

namespace Registry

open Command

/-- The commands that are listed by a key. -/
def listedBy (key : String ×ₗ String) (commands : List Command) : List Command :=
  commands.filter (·.listingKey = key)

theorem sorted_mergeSort (commands : List Command) :
    (commands.mergeSort listedBefore).Pairwise fun a b => a.listingKey ≤ b.listingKey := by
  have h : (commands.mergeSort listedBefore).Pairwise (listedBefore · ·) := by
    refine List.pairwise_mergeSort ?_ ?_ commands
    · exact fun _ _ _ => listedBefore_trans
    · exact listedBefore_total
  exact h.imp listedBefore_iff.1

/-- Sorting keeps commands in order that are listed alike. -/
theorem listedBy_mergeSort (key : String ×ₗ String) (commands : List Command) :
    listedBy key (commands.mergeSort listedBefore) = listedBy key commands := by
  have hp : (listedBy key commands).Pairwise (listedBefore · ·) := by
    refine List.pairwise_of_forall_mem_list fun a ha b hb => listedBefore_iff.2 (le_of_eq ?_)
    rw [of_decide_eq_true (List.mem_filter.1 ha).2, of_decide_eq_true (List.mem_filter.1 hb).2]
  have hs : (listedBy key commands).Sublist (commands.mergeSort listedBefore) := by
    refine List.sublist_mergeSort ?_ ?_ hp List.filter_sublist
    · exact fun _ _ _ => listedBefore_trans
    · exact listedBefore_total
  -- a sublist of the sorted commands, and as long as what it is to be
  have hf : (listedBy key commands).Sublist (listedBy key (commands.mergeSort listedBefore)) := by
    simpa only [listedBy, List.filter_filter, Bool.and_self] using hs.filter (·.listingKey = key)
  have hl := ((List.mergeSort_perm commands listedBefore).filter (·.listingKey = key)).length_eq
  exact (hf.eq_of_length hl.symm).symm

/-! ## The five views -/

/-- The registry shows the commands in order, and its views of them agree. -/
structure Arranges (r : Registry) (commands : List Command) : Prop where
  perm : r.commands.Perm commands
  sorted : r.commands.Pairwise fun a b => a.listingKey ≤ b.listingKey
  /-- Commands that are listed alike are in the order that they came in. -/
  stable : ∀ key, listedBy key r.commands = listedBy key commands
  categories_sorted : r.categories.Pairwise fun a b => a.label < b.label
  categories_eq : r.categories = r.commandsByCategory.keys
  groups : ∀ group ∈ r.commandsByCategory.entries,
    group.2 ≠ [] ∧ group.2 = ofCategory group.1 r.commands
  flatMap_groups : r.commandsByCategory.entries.flatMap (·.2) = r.commands
  sum_counts : (r.categoryCounts.map (·.2)).sum = r.totalCommands
  total : r.totalCommands = r.commands.length

theorem arranges_assemble (commands : List Command) (nodePrefs : OrderedMap String Field)
    (provenance : Provenance) : (assemble commands nodePrefs provenance).Arranges commands := by
  have hs := sorted_mergeSort commands
  have hl : SortedByLabel (commands.mergeSort listedBefore) := hs.imp label_le_of_listingKey_le
  have hf := flatMap_groupByCategory hl
  exact {
    perm := List.mergeSort_perm commands listedBefore
    sorted := hs
    stable := fun key => listedBy_mergeSort key commands
    categories_sorted := keys_groupByCategory_sorted hl
    categories_eq := rfl
    groups := fun group hg => mem_groupByCategory_iff.1 hg
    flatMap_groups := hf
    sum_counts := by
      have := congrArg List.length hf
      rw [List.length_flatMap] at this
      simpa [categoryCounts, assemble, Function.comp_def] using this
    total := rfl }

/-- Where no two commands have one name, no two are listed alike. -/
theorem Arranges.strict {r : Registry} {commands : List Command} (h : r.Arranges commands)
    (hn : (commands.map Command.name).Nodup) :
    (r.commands.map Command.name).Nodup ∧
      r.commands.Pairwise fun a b => a.listingKey < b.listingKey := by
  have hd : (r.commands.map Command.name).Nodup := (h.perm.map Command.name).nodup_iff.2 hn
  refine ⟨hd, (h.sorted.and (List.pairwise_map.1 hd)).imp fun ⟨hle, hne⟩ => ?_⟩
  exact lt_of_le_of_ne hle fun he => hne (name_eq_of_listingKey_eq he)

/-- **The published registry.** The views of an assembled registry agree, whatever the commands;
those of a dispatcher have distinct names, so that their order is strict. -/
theorem assemble_arranges :
    (∀ commands nodePrefs provenance,
      (assemble commands nodePrefs provenance).Arranges commands) ∧
    ∀ settings source nodePrefs provenance,
      ((assemble (Dispatcher.extract settings source) nodePrefs provenance).commands.map
          Command.name).Nodup ∧
        (assemble (Dispatcher.extract settings source) nodePrefs provenance).commands.Pairwise
          fun a b => a.listingKey < b.listingKey :=
  ⟨arranges_assemble, fun settings source _ _ =>
    (arranges_assemble _ _ _).strict (Dispatcher.nodup_names_extract settings source)⟩

end Registry

end CliParity
