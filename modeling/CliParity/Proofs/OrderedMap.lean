import CliParity.OrderedMap
import Mathlib.Data.List.Nodup

/-!
# Ordered maps and their entries

An ordered map is its entries: a value is that of the one entry with the key (`mem_entries_iff`), a
new key makes an entry at the end (`entries_insert_of_not_mem`), entries with distinct keys are kept
as they are (`entries_ofList`), and the entries give the map back (`ofList_entries`). The map of a
list has no entries but those of the list (`mem_of_mem_ofList`), and all of its keys
(`mem_keys_ofList_iff`).
-/

set_option autoImplicit false

namespace CliParity.OrderedMap

variable {κ ν : Type}

theorem eq_of_entries {m n : OrderedMap κ ν} (h : m.entries = n.entries) : m = n := by
  cases m
  cases n
  subst h
  rfl

variable [DecidableEq κ]

theorem lookup?_eq_some_iff {key : κ} {value : ν} {entries : List (κ × ν)}
    (h : (entries.map (·.1)).Nodup) :
    lookup? key entries = some value ↔ (key, value) ∈ entries := by
  induction entries with
  | nil => simp [lookup?]
  | cons e rest ih =>
    obtain ⟨k, v⟩ := e
    obtain ⟨hk, hrest⟩ := List.nodup_cons.1 h
    rw [lookup?, List.mem_cons, Prod.mk.injEq]
    by_cases he : k = key
    · subst he
      have hn : (k, value) ∉ rest := fun hm => hk (List.mem_map.2 ⟨_, hm, rfl⟩)
      simp [hn, eq_comm]
    · rw [if_neg he, ih hrest]
      simp [Ne.symm he]

theorem mem_entries_iff {m : OrderedMap κ ν} {key : κ} {value : ν} :
    (key, value) ∈ m.entries ↔ m.get? key = some value :=
  (lookup?_eq_some_iff m.nodup).symm

theorem upsert_of_not_mem {key : κ} {value : ν} {entries : List (κ × ν)}
    (h : key ∉ entries.map (·.1)) : upsert key value entries = entries ++ [(key, value)] := by
  induction entries with
  | nil => rfl
  | cons e rest ih =>
    obtain ⟨k, v⟩ := e
    obtain ⟨hk, hrest⟩ := not_or.1 (mt List.mem_cons.2 h)
    rw [upsert, if_neg (Ne.symm hk), ih hrest, List.cons_append]

theorem entries_insert_of_not_mem {m : OrderedMap κ ν} {key : κ} (value : ν) (h : key ∉ m.keys) :
    (m.insert key value).entries = m.entries ++ [(key, value)] :=
  upsert_of_not_mem h

theorem entries_foldl_insert {entries : List (κ × ν)} {m : OrderedMap κ ν}
    (h : ((m.entries ++ entries).map (·.1)).Nodup) :
    (entries.foldl (fun m (k, v) => m.insert k v) m).entries = m.entries ++ entries := by
  induction entries generalizing m with
  | nil => simp
  | cons e rest ih =>
    obtain ⟨k, v⟩ := e
    have hk : k ∉ m.keys := by
      rw [List.map_append, List.map_cons, List.nodup_append] at h
      exact fun hm => h.2.2 k hm k List.mem_cons_self rfl
    have hm : (m.insert k v).entries ++ rest = m.entries ++ (k, v) :: rest := by
      rw [entries_insert_of_not_mem v hk, List.append_assoc, List.singleton_append]
    rw [List.foldl_cons, ih (by rwa [hm]), hm]

theorem entries_ofList {entries : List (κ × ν)} (h : (entries.map (·.1)).Nodup) :
    (ofList entries).entries = entries :=
  entries_foldl_insert h

/-- The entries of a map make the map. -/
theorem ofList_entries (m : OrderedMap κ ν) : ofList m.entries = m :=
  eq_of_entries (entries_ofList m.nodup)

theorem mem_entries_insert {m : OrderedMap κ ν} {key : κ} {value : ν} {e : κ × ν}
    (h : e ∈ (m.insert key value).entries) : e = (key, value) ∨ e ∈ m.entries := by
  obtain ⟨k, v⟩ := e
  rw [mem_entries_iff, get?_insert] at h
  split at h
  · rename_i hk
    exact .inl (Prod.ext hk (Option.some.inj h).symm)
  · exact .inr (mem_entries_iff.2 h)

theorem mem_entries_foldl_insert {entries : List (κ × ν)} {m : OrderedMap κ ν} {e : κ × ν}
    (h : e ∈ (entries.foldl (fun m (k, v) => m.insert k v) m).entries) :
    e ∈ m.entries ∨ e ∈ entries := by
  induction entries generalizing m with
  | nil => exact .inl h
  | cons first rest ih =>
    rcases ih h with hm | hr
    · rcases mem_entries_insert hm with rfl | hm
      · exact .inr List.mem_cons_self
      · exact .inl hm
    · exact .inr (List.mem_cons_of_mem _ hr)

/-- The entries of the map of a list are from the list. -/
theorem mem_of_mem_ofList {entries : List (κ × ν)} {e : κ × ν} (h : e ∈ (ofList entries).entries) :
    e ∈ entries :=
  (mem_entries_foldl_insert h).resolve_left List.not_mem_nil

theorem mem_keys_foldl_insert_iff {entries : List (κ × ν)} {m : OrderedMap κ ν} {key : κ} :
    key ∈ (entries.foldl (fun m (k, v) => m.insert k v) m).keys ↔
      key ∈ m.keys ∨ key ∈ entries.map (·.1) := by
  induction entries generalizing m with
  | nil => simp
  | cons first rest ih =>
    obtain ⟨k, v⟩ := first
    have hinsert : key ∈ (m.insert k v).keys ↔ key ∈ m.keys ∨ key = k := by
      rw [keys_insert]
      split
      · rename_i hk
        exact ⟨.inl, fun h => h.elim id fun he => he ▸ hk⟩
      · rw [List.mem_append, List.mem_singleton]
    rw [List.foldl_cons, ih, hinsert, List.map_cons, List.mem_cons, or_assoc]

/-- The keys of the map of a list are those of the list. -/
theorem mem_keys_ofList_iff {entries : List (κ × ν)} {key : κ} :
    key ∈ (ofList entries).keys ↔ key ∈ entries.map (·.1) :=
  mem_keys_foldl_insert_iff.trans (or_iff_right List.not_mem_nil)

end CliParity.OrderedMap
