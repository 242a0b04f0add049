import CliParity.Proofs.Registry.Assembly
import Mathlib.Data.List.Nodup

/-!
# Assembly is canonical

Of the order in which commands come in, a registry keeps no more than the order among commands that
are listed alike (`assemble_eq_iff`). So commands of which no two are listed alike give one registry
in whatever order they come in, and the commands of a registry give it back (`assemble_canonical`).
-/

set_option autoImplicit false

namespace CliParity.Registry

open Command

variable {commands commands' : List Command} {key : String ×ₗ String} {c : Command}

theorem mem_listedBy_iff : c ∈ listedBy key commands ↔ c ∈ commands ∧ c.listingKey = key := by
  simp [listedBy]

theorem listedBy_cons (key : String ×ₗ String) (c : Command) (commands : List Command) :
    listedBy key (c :: commands) =
      if c.listingKey = key then c :: listedBy key commands else listedBy key commands := by
  simp [listedBy, List.filter_cons]

theorem mem_iff_of_listedBy (h : ∀ key, listedBy key commands = listedBy key commands') :
    c ∈ commands ↔ c ∈ commands' := by
  have hc := congrArg (c ∈ ·) (h c.listingKey)
  simpa [mem_listedBy_iff] using hc

/-- In a sorted list, no command is listed before the first. -/
theorem listingKey_le_of_mem {first : Command}
    (hs : (first :: commands).Pairwise fun a b => a.listingKey ≤ b.listingKey)
    (hc : c ∈ first :: commands) : first.listingKey ≤ c.listingKey := by
  rcases List.mem_cons.1 hc with rfl | hc
  · exact le_refl _
  · exact (List.pairwise_cons.1 hs).1 c hc

/-- A sorted list is told by what it lists by each key. -/
theorem eq_of_listedBy (hs : commands.Pairwise fun a b => a.listingKey ≤ b.listingKey)
    (hs' : commands'.Pairwise fun a b => a.listingKey ≤ b.listingKey)
    (h : ∀ key, listedBy key commands = listedBy key commands') : commands = commands' := by
  induction commands generalizing commands' with
  | nil =>
    cases commands' with
    | nil => rfl
    | cons c _ => exact absurd ((mem_iff_of_listedBy h).2 List.mem_cons_self) List.not_mem_nil
  | cons a commands ih =>
    cases commands' with
    | nil => exact absurd ((mem_iff_of_listedBy h).1 List.mem_cons_self) List.not_mem_nil
    | cons b commands' =>
      -- both first commands have the least key, so they are the first of those listed by it
      have hab : a.listingKey = b.listingKey :=
        le_antisymm (listingKey_le_of_mem hs ((mem_iff_of_listedBy h).2 List.mem_cons_self))
          (listingKey_le_of_mem hs' ((mem_iff_of_listedBy h).1 List.mem_cons_self))
      have hfirst := h a.listingKey
      rw [listedBy_cons, listedBy_cons, if_pos rfl, if_pos hab.symm] at hfirst
      obtain ⟨rfl, -⟩ := List.cons.inj hfirst
      have hrest : ∀ key, listedBy key commands = listedBy key commands' := by
        intro key
        have hk := h key
        rw [listedBy_cons, listedBy_cons] at hk
        split at hk
        · exact (List.cons.inj hk).2
        · exact hk
      rw [ih (List.pairwise_cons.1 hs).2 (List.pairwise_cons.1 hs').2 hrest]

/-- Two lists of commands give one registry if and only if they have the commands that are listed
alike in one order. -/
theorem assemble_eq_iff (nodePrefs : OrderedMap String Field) (provenance : Provenance) :
    assemble commands nodePrefs provenance = assemble commands' nodePrefs provenance ↔
      ∀ key, listedBy key commands = listedBy key commands' := by
  constructor
  · intro h key
    have hsorted : commands.mergeSort listedBefore = commands'.mergeSort listedBefore :=
      congrArg Registry.commands h
    rw [← listedBy_mergeSort, hsorted, listedBy_mergeSort]
  · intro h
    have hsorted : commands.mergeSort listedBefore = commands'.mergeSort listedBefore := by
      refine eq_of_listedBy (sorted_mergeSort _) (sorted_mergeSort _) fun key => ?_
      rw [listedBy_mergeSort, listedBy_mergeSort, h]
    rw [assemble, hsorted, assemble]

theorem eq_of_listingKey_eq (hd : (commands.map fun c => (c.category, c.name)).Nodup)
    {a b : Command} (ha : a ∈ commands) (hb : b ∈ commands)
    (h : a.listingKey = b.listingKey) : a = b := by
  refine List.inj_on_of_nodup_map hd ha hb (Prod.ext ?_ (name_eq_of_listingKey_eq h))
  exact Category.label_injective (congrArg (fun k => (ofLex k).1) h)

/-- **Assembly is canonical.** Commands with distinct pairs of category and name give one registry
in any order. The commands of a registry, whatever it was assembled from, give that registry. -/
theorem assemble_canonical (nodePrefs : OrderedMap String Field) (provenance : Provenance) :
    (∀ commands commands', (commands.map fun c => (c.category, c.name)).Nodup →
      commands'.Perm commands →
      assemble commands' nodePrefs provenance = assemble commands nodePrefs provenance) ∧
    ∀ commands, assemble (assemble commands nodePrefs provenance).commands nodePrefs provenance =
      assemble commands nodePrefs provenance := by
  refine ⟨fun commands commands' hd hp => ?_, fun commands => ?_⟩
  · rw [assemble_eq_iff]
    intro key
    -- no two commands are listed by the key, so there is one order only
    have hany : ∀ l : List Command, l.Pairwise fun _ _ => True := fun l =>
      List.pairwise_of_forall fun _ _ => trivial
    refine List.Perm.eq_of_pairwise (fun a b ha hb _ _ => ?_) (hany _) (hany _) (hp.filter _)
    obtain ⟨ha, hak⟩ := mem_listedBy_iff.1 ha
    obtain ⟨hb, hbk⟩ := mem_listedBy_iff.1 hb
    exact eq_of_listingKey_eq hd (hp.mem_iff.1 ha) hb (hak.trans hbk.symm)
  · rw [assemble_eq_iff]
    exact fun key => listedBy_mergeSort key commands

/-- Two commands of one category in either order. -/
theorem assemble_exchanged :
    let a : Command := ⟨"get b", .get, [], none, "", false, false⟩
    let b : Command := ⟨"get a", .get, [], none, "", true, false⟩
    ([a, b].map fun c => (c.category, c.name)).Nodup ∧ [b, a].Perm [a, b] ∧
      assemble [b, a] .empty ⟨"", "", ""⟩ = assemble [a, b] .empty ⟨"", "", ""⟩ := by
  intro a b
  have hd : ([a, b].map fun c => (c.category, c.name)).Nodup := by decide
  have hp : [b, a].Perm [a, b] := .swap a b []
  exact ⟨hd, hp, (assemble_canonical .empty ⟨"", "", ""⟩).1 _ _ hd hp⟩

end CliParity.Registry
