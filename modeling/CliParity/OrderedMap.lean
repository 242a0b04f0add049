/-!
# Maps that keep the order of insertion

An `OrderedMap` is a list of entries with pairwise distinct keys. A new key goes to the end; a key
that is there already keeps its place and takes the new value.

* `keys_insert`, `get?_insert`: what an insertion does to the keys and to the values.
-/

set_option autoImplicit false

namespace CliParity

/-- A finite map whose entries are in the order in which their keys were first inserted. -/
structure OrderedMap (κ ν : Type) where
  entries : List (κ × ν)
  /-- No key stands twice. -/
  nodup : (entries.map (·.1)).Nodup
  deriving DecidableEq, Repr

namespace OrderedMap

variable {κ ν : Type}

/-- The map without entries. -/
def empty : OrderedMap κ ν := ⟨[], List.nodup_nil⟩

/-- The keys in order. -/
def keys (m : OrderedMap κ ν) : List κ := m.entries.map (·.1)

variable [DecidableEq κ]

/-- The value of the first entry with a key. -/
def lookup? (key : κ) : List (κ × ν) → Option ν
  | [] => none
  | (k, v) :: rest => if k = key then some v else lookup? key rest

/-- Sets the value of a key in place, or adds an entry at the end. -/
def upsert (key : κ) (value : ν) : List (κ × ν) → List (κ × ν)
  | [] => [(key, value)]
  | (k, v) :: rest => if k = key then (key, value) :: rest else (k, v) :: upsert key value rest

theorem keys_upsert (key : κ) (value : ν) (entries : List (κ × ν)) :
    (upsert key value entries).map (·.1) =
      if key ∈ entries.map (·.1) then entries.map (·.1) else entries.map (·.1) ++ [key] := by
  induction entries with
  | nil => simp [upsert]
  | cons e rest ih =>
    obtain ⟨k, v⟩ := e
    by_cases h : k = key
    · simp [upsert, h]
    · have h' : ¬ key = k := fun e => h e.symm
      simp only [upsert, h, if_false, List.map_cons, ih, List.mem_cons, h', false_or]
      split <;> simp

theorem lookup?_upsert (key key' : κ) (value : ν) (entries : List (κ × ν)) :
    lookup? key' (upsert key value entries) =
      if key' = key then some value else lookup? key' entries := by
  induction entries with
  | nil => simp [upsert, lookup?, eq_comm]
  | cons e rest ih =>
    obtain ⟨k, v⟩ := e
    by_cases hk : k = key
    · subst hk
      by_cases h : key' = k
      · simp [upsert, lookup?, h]
      · have h' : ¬ k = key' := fun e => h e.symm
        simp [upsert, lookup?, h, h']
    · by_cases h : k = key'
      · subst h
        simp [upsert, lookup?, hk]
      · simp [upsert, lookup?, hk, h, ih]

/-- The value of a key. -/
def get? (m : OrderedMap κ ν) (key : κ) : Option ν := lookup? key m.entries

/-- The map with a value set for a key. -/
def insert (m : OrderedMap κ ν) (key : κ) (value : ν) : OrderedMap κ ν where
  entries := upsert key value m.entries
  nodup := by
    rw [keys_upsert]
    split
    · exact m.nodup
    · rename_i h
      refine List.nodup_append.2 ⟨m.nodup, by simp, fun a ha b hb hab => h ?_⟩
      rw [← List.mem_singleton.1 hb, ← hab]
      exact ha

/-- The map without a key. -/
def erase (m : OrderedMap κ ν) (key : κ) : OrderedMap κ ν where
  entries := m.entries.filter fun (k, _) => k ≠ key
  nodup := m.nodup.sublist (List.Sublist.map _ List.filter_sublist)

/-- The map of a list of entries: a repeated key keeps its first place and its last value. -/
def ofList (entries : List (κ × ν)) : OrderedMap κ ν :=
  entries.foldl (fun m (k, v) => m.insert k v) empty

theorem keys_insert (m : OrderedMap κ ν) (key : κ) (value : ν) :
    (m.insert key value).keys = if key ∈ m.keys then m.keys else m.keys ++ [key] :=
  keys_upsert key value m.entries

theorem get?_insert (m : OrderedMap κ ν) (key key' : κ) (value : ν) :
    (m.insert key value).get? key' = if key' = key then some value else m.get? key' :=
  lookup?_upsert key key' value m.entries

end OrderedMap

end CliParity
