import CliParity.Json.Decode
import CliParity.Proofs.Json.Numeral
import Mathlib.Data.List.Nodup

/-!
# What is decoded from a value that was made

For each way to make a value of texts, words, lists, options and named members there is one to take
it apart again: `toWord?_nat`, `toList?_arr`, `optional?_ofOption`, `toMembers?_object`,
`toFields?_object`.
-/

set_option autoImplicit false

namespace CliParity.Json

section
variable {α β κ : Type}

/-- What is decoded item by item. -/
theorem mapM_map {γ : Type} {f : γ → β} {g : β → Option α} {k : γ → α} {l : List γ}
    (h : ∀ c ∈ l, g (f c) = some (k c)) : (l.map f).mapM g = some (l.map k) := by
  induction l with
  | nil => rfl
  | cons c l ih =>
    have hl := ih fun b hb => h b (List.mem_cons_of_mem c hb)
    rw [List.map_cons, List.mapM_cons, h c List.mem_cons_self, hl]
    rfl

/-! ## Texts, truth values, words -/

@[simp] theorem toText?_str (text : String) : (str text).toText? = some text := rfl

@[simp] theorem toBool?_bool (b : Bool) : (bool b).toBool? = some b := rfl

@[simp] theorem toLabel?_str (label : String) : (str label).toLabel? = some label := rfl

theorem toWord?_nat {n : Nat} (h : n < Text.wordLimit) : (nat n).toWord? = some n := by
  rw [nat, toWord?, String.toList_ofList]
  exact Numeral.wordValue?_toDigits h

/-! ## Lists and options -/

variable {decode : Json → Option α} {encode : α → Json}

theorem toList?_arr {l : List α} (h : ∀ a ∈ l, decode (encode a) = some a) :
    toList? decode (.arr (l.map encode)) = some l := by
  have hm := mapM_map (k := id) h
  rwa [List.map_id] at hm

/-- A value that may be absent, unless it is itself written as null. -/
theorem optional?_ofOption {a? : Option α}
    (h : ∀ a ∈ a?, encode a ≠ null ∧ decode (encode a) = some a) :
    optional? decode (some (ofOption encode a?)) = some a? := by
  cases a? with
  | none => rfl
  | some a =>
    obtain ⟨hn, ha⟩ := h a rfl
    rw [ofOption, optional?, toOption?, ha, Option.map_some]
    exact hn

/-! ## Objects -/

theorem toMembers?_object (key : κ → String) {entries : List (κ × α)}
    (h : ∀ e ∈ entries, decode (encode e.2) = some e.2) :
    toMembers? decode (object (entries.map fun e => (key e.1, encode e.2))) =
      some (entries.map fun e => (key e.1, e.2)) := by
  rw [object, toMembers?, List.map_map]
  exact mapM_map fun e he => by simp [toMember?, h e he]

theorem filter_of_nodup {members : List (String × Json)} (h : (members.map (·.1)).Nodup)
    {m : String × Json} (hm : m ∈ members) : members.filter (fun (k, _) => k = m.1) = [m] := by
  induction members with
  | nil => exact absurd hm List.not_mem_nil
  | cons n members ih =>
    obtain ⟨hn, hd⟩ := List.nodup_cons.1 h
    rcases List.mem_cons.1 hm with rfl | hm
    · have hf : members.filter (fun (k, _) => k = m.1) = [] := by
        refine List.filter_eq_nil_iff.2 fun o ho he => hn ?_
        exact List.mem_map.2 ⟨o, ho, of_decide_eq_true he⟩
      rw [List.filter_cons_of_pos (by simp), hf]
    · have hne : n.1 ≠ m.1 := fun he => hn (List.mem_map.2 ⟨m, hm, he.symm⟩)
      rw [List.filter_cons_of_neg (by simpa using hne), ih hd hm]

/-- The fields of an object are looked up one by one. -/
theorem toFields?_object_eq (names : List String) (members : List (String × Json)) :
    toFields? names (object members) = names.mapM (field? · members) := by
  have hm : (members.map fun (key, value) => ((some key : Content), value)).mapM (toMember? some) =
      some members := by
    have := mapM_map (f := fun m : String × Json => ((some m.1 : Content), m.2))
      (g := toMember? some) (k := id) (l := members) fun m _ => rfl
    rwa [List.map_id] at this
  rw [object, toFields?, hm]
  rfl

/-- The fields of an object that has just these, in order. -/
theorem toFields?_object (members : List (String × Json)) (h : (members.map (·.1)).Nodup) :
    toFields? (members.map (·.1)) (object members) = some (members.map fun m => some m.2) := by
  rw [toFields?_object_eq]
  exact mapM_map fun m hm => by rw [field?, filter_of_nodup h hm]

end

end CliParity.Json
