import CliParity.Proofs.Json.Decode
import Mathlib.Data.List.Forall2

/-!
# How records are presented

A `Shape` says which objects within a value are records, and which fields they have. The members of
a record may come in any order and among members of other names, and what may be absent may also be
null. `Change` is one such change of the presentation, anywhere in a value. `Faulty` says that
somewhere in a value a record has a field twice, or lacks one that it has to have.

A decoder keeps to a shape (`KeepsTo`) if it tells no presentations apart and refuses what is
faulty. That is shown once for each kind of shape: `keepsTo_plain`, `KeepsTo.list`, `KeepsTo.map`
and, for a decoder that reads a record field by field, `Decodes.keepsTo`.
-/

set_option autoImplicit false

namespace CliParity.Json

/-! ## Shapes -/

/-- Whether a record has to have a field. -/
inductive Presence
  | required
  | optional

/-- What a value is made of. -/
inductive Shape
  /-- No records. -/
  | plain
  /-- An array of items of one shape. -/
  | list (item : Shape)
  /-- An object with any keys, for values of one shape. -/
  | map (value : Shape)
  /-- An object with these members, and maybe others. -/
  | record (fields : List (String × Presence × Shape))

/-- A change of the presentation. What is added, dropped or changed comes first here; by `permute`
it may stand anywhere. -/
inductive Change : Shape → Json → Json → Prop
  /-- The members of a record in another order. -/
  | permute {fields : List (String × Presence × Shape)} {members members' : List (String × Json)} :
      members.Perm members' → Change (.record fields) (object members) (object members')
  /-- One more member, of any value, under a name that no field has. -/
  | add {fields : List (String × Presence × Shape)} {members : List (String × Json)} {name : String}
      (v : Json) : name ∉ fields.map (·.1) →
      Change (.record fields) (object members) (object ((name, v) :: members))
  /-- One member less, null and for a field that may be absent. -/
  | drop {fields : List (String × Presence × Shape)} {members : List (String × Json)}
      {name : String} {shape : Shape} : (name, .optional, shape) ∈ fields →
      name ∉ members.map (·.1) →
      Change (.record fields) (object ((name, null) :: members)) (object members)
  /-- A change within a field. -/
  | field {fields : List (String × Presence × Shape)} {members : List (String × Json)}
      {name : String} {presence : Presence} {shape : Shape} {v w : Json} :
      (name, presence, shape) ∈ fields → Change shape v w →
      Change (.record fields) (object ((name, v) :: members)) (object ((name, w) :: members))
  /-- A change within an item. -/
  | item {shape : Shape} {before after : List Json} {v w : Json} : Change shape v w →
      Change (.list shape) (.arr (before ++ v :: after)) (.arr (before ++ w :: after))
  /-- A change within an entry. -/
  | entry {shape : Shape} {before after : List (String × Json)} {key : String} {v w : Json} :
      Change shape v w → Change (.map shape) (object (before ++ (key, v) :: after))
        (object (before ++ (key, w) :: after))

/-- Somewhere in the value a record has a field twice or lacks one. -/
inductive Faulty : Shape → Json → Prop
  | repeated {fields : List (String × Presence × Shape)} {members : List (String × Json)}
      {name : String} : name ∈ fields.map (·.1) → 1 < (members.map (·.1)).count name →
      Faulty (.record fields) (object members)
  | missing {fields : List (String × Presence × Shape)} {members : List (String × Json)}
      {name : String} {shape : Shape} : (name, .required, shape) ∈ fields →
      name ∉ members.map (·.1) → Faulty (.record fields) (object members)
  | field {fields : List (String × Presence × Shape)} {members : List (String × Json)}
      {name : String} {presence : Presence} {shape : Shape} {v : Json} :
      (name, presence, shape) ∈ fields → (name, v) ∈ members → Faulty shape v →
      Faulty (.record fields) (object members)
  | item {shape : Shape} {items : List Json} {v : Json} : v ∈ items → Faulty shape v →
      Faulty (.list shape) (.arr items)
  | entry {shape : Shape} {members : List (String × Json)} {key : String} {v : Json} :
      (key, v) ∈ members → Faulty shape v → Faulty (.map shape) (object members)

/-! ## Members by their key -/

section
variable {key : String} {members members' : List (String × Json)} {v : Json}

theorem field?_perm (h : members.Perm members') (key : String) :
    field? key members = field? key members' := by
  unfold field?
  generalize hfound : members.filter _ = found
  generalize hfound' : members'.filter _ = found'
  have hf : found.Perm found' := by
    rw [← hfound, ← hfound']
    exact h.filter _
  rcases found with _ | ⟨m, _ | ⟨n, found⟩⟩
  · rw [hf.nil_eq]
  · rw [List.perm_singleton.1 hf.symm]
  · have hl := hf.length_eq
    rcases found' with _ | ⟨m', _ | ⟨n', found'⟩⟩
    · cases hl
    · cases hl
    · rfl

theorem field?_cons_of_ne {name : String} (h : name ≠ key) :
    field? key ((name, v) :: members) = field? key members := by
  rw [field?, List.filter_cons_of_neg (by simpa using h), field?]

theorem filter_of_notMem (h : key ∉ members.map (·.1)) :
    members.filter (fun (k, _) => k = key) = [] :=
  List.filter_eq_nil_iff.2 fun m hm hk => h (List.mem_map.2 ⟨m, hm, of_decide_eq_true hk⟩)

theorem field?_of_notMem (h : key ∉ members.map (·.1)) : field? key members = some none := by
  rw [field?, filter_of_notMem h]

theorem field?_cons_self (h : key ∉ members.map (·.1)) :
    field? key ((key, v) :: members) = some (some v) := by
  rw [field?, List.filter_cons_of_pos (by simp), filter_of_notMem h]

/-- A second member with the key. -/
theorem field?_cons_of_mem (h : key ∈ members.map (·.1)) :
    field? key ((key, v) :: members) = none := by
  obtain ⟨m, hm, hk⟩ := List.mem_map.1 h
  rw [field?, List.filter_cons_of_pos (by simp)]
  cases hf : members.filter (fun (k, _) => k = key) with
  | nil => exact absurd (decide_eq_true hk) (List.filter_eq_nil_iff.1 hf m hm)
  | cons n found => rfl

/-- A member comes first in some order of the members. -/
theorem exists_perm_of_mem {m : String × Json} (h : m ∈ members) :
    ∃ rest, members.Perm (m :: rest) := by
  obtain ⟨before, after, rfl⟩ := List.append_of_mem h
  exact ⟨before ++ after, List.perm_middle⟩

/-- If no other member has the key, its value is the one of this member. -/
theorem field?_of_mem (h : (key, v) ∈ members) :
    field? key members = some (some v) ∨ field? key members = none := by
  obtain ⟨rest, hp⟩ := exists_perm_of_mem h
  rw [field?_perm hp]
  by_cases hk : key ∈ rest.map (·.1)
  · exact .inr (field?_cons_of_mem hk)
  · exact .inl (field?_cons_self hk)

theorem field?_of_count (h : 1 < (members.map (·.1)).count key) : field? key members = none := by
  obtain ⟨m, hm, rfl⟩ := List.mem_map.1 (List.count_pos_iff.1 (Nat.zero_lt_of_lt h))
  obtain ⟨rest, hp⟩ := exists_perm_of_mem hm
  have hcount := (hp.map (·.1)).count_eq m.1
  rw [List.map_cons, List.count_cons_self] at hcount
  rw [field?_perm hp]
  exact field?_cons_of_mem (List.count_pos_iff.1 (by omega))

end

/-! ## Decoders -/

section
variable {α β : Type} {shape : Shape} {decode : Json → Option α}

/-- The decoder does not tell presentations apart, and takes nothing that is faulty. -/
structure KeepsTo (shape : Shape) (decode : Json → Option α) : Prop where
  change : ∀ {v w}, Change shape v w → decode v = decode w
  faulty : ∀ {v}, Faulty shape v → decode v = none

theorem keepsTo_plain (decode : Json → Option α) : KeepsTo .plain decode :=
  ⟨nofun, nofun⟩

theorem KeepsTo.bind (h : KeepsTo shape decode) (k : α → Option β) :
    KeepsTo shape fun v => (decode v).bind k where
  change hc := by rw [h.change hc]
  faulty hf := by rw [h.faulty hf, Option.bind_none]

theorem mapM_eq_none_of_mem {γ : Type} {f : γ → Option α} {l : List γ} {c : γ} (hc : c ∈ l)
    (h : f c = none) : l.mapM f = none := by
  induction l with
  | nil => exact absurd hc List.not_mem_nil
  | cons d l ih =>
    rw [List.mapM_cons]
    rcases List.mem_cons.1 hc with rfl | hc
    · rw [h]
      rfl
    · rw [ih hc]
      cases f d <;> rfl

theorem KeepsTo.list (h : KeepsTo shape decode) : KeepsTo (.list shape) (toList? decode) where
  change hc := by
    cases hc with
    | item hc => simp only [toList?, toItems?, Option.bind_some, List.mapM_append, List.mapM_cons,
        h.change hc]
  faulty hf := by
    cases hf with
    | item hm hf => exact mapM_eq_none_of_mem hm (h.faulty hf)

theorem KeepsTo.map (h : KeepsTo shape decode) : KeepsTo (.map shape) (toMembers? decode) where
  change hc := by
    cases hc with
    | entry hc => simp only [toMembers?, object, List.map_append, List.map_cons, List.mapM_append,
        List.mapM_cons, toMember?, h.change hc]
  faulty hf := by
    cases hf with
    | @entry _ members key v hm hf =>
      have hmember : toMember? decode (some key, v) = none := by
        rw [toMember?, h.faulty hf]
        rfl
      exact mapM_eq_none_of_mem (List.mem_map_of_mem hm) hmember

end

/-! ## Records -/

/-- A field of the records for an `α`. -/
structure RecordField (α : Type) where
  name : String
  presence : Presence
  shape : Shape
  /-- What may stand for the field in the record of a value: a value, or nothing if the field is
  absent. -/
  accepts : α → Option Json → Prop

namespace RecordField

variable {α β : Type}

/-- The field as part of a shape. -/
def entry (f : RecordField α) : String × Presence × Shape := (f.name, f.presence, f.shape)

/-- A field that has to be present, for a part of the value. -/
def required (name : String) (shape : Shape) (decode : Json → Option β) (part : α → β) :
    RecordField α where
  name := name
  presence := .required
  shape := shape
  accepts a value := required? decode value = some (part a)

/-- A field that may be absent, for a part that the value may lack. -/
def optional (name : String) (decode : Json → Option β) (part : α → Option β) :
    RecordField α where
  name := name
  presence := .optional
  shape := .plain
  accepts a value := optional? decode value = some (part a)

/-- What the field accepts keeps to its shape and presence. -/
structure Sound (f : RecordField α) : Prop where
  change : ∀ {v w}, Change f.shape v w → ∀ a, f.accepts a (some v) ↔ f.accepts a (some w)
  faulty : ∀ {v}, Faulty f.shape v → ∀ a, ¬ f.accepts a (some v)
  absent : f.presence = .required → ∀ a, ¬ f.accepts a none
  null : f.presence = .optional → ∀ a, f.accepts a (some null) ↔ f.accepts a none

theorem sound_required {shape : Shape} {decode : Json → Option β} (h : KeepsTo shape decode)
    (name : String) (part : α → β) : (required name shape decode part).Sound where
  change hc a := by simp only [required, required?, Option.bind_some, h.change hc]
  faulty hf a := by simp [required, required?, h.faulty hf]
  absent _ a := by simp [required, required?]
  null := nofun

theorem sound_optional (name : String) (decode : Json → Option β) (part : α → Option β) :
    (optional name decode part).Sound where
  change := nofun
  faulty := nofun
  absent := nofun
  null _ _ := Iff.rfl

/-- The members of an object have what the field of `a` accepts. -/
def Reads (f : RecordField α) (members : List (String × Json)) (a : α) : Prop :=
  ∃ value, field? f.name members = some value ∧ f.accepts a value

section
variable {f : RecordField α} {members : List (String × Json)} {a : α} {v w : Json}

theorem reads_iff_of_field? {value : Option Json} (h : field? f.name members = some value) :
    f.Reads members a ↔ f.accepts a value := by
  simp [Reads, h]

theorem not_reads_of_field? (h : field? f.name members = none) : ¬ f.Reads members a := by
  simp [Reads, h]

theorem reads_cons_of_ne {name : String} (h : name ≠ f.name) :
    f.Reads ((name, v) :: members) a ↔ f.Reads members a := by
  rw [Reads, Reads, field?_cons_of_ne h]

/-- Null is read like no member, where it may be left out. -/
theorem Sound.reads_null_iff (hs : f.Sound) (hp : f.presence = .optional)
    (hname : f.name ∉ members.map (·.1)) :
    f.Reads ((f.name, Json.null) :: members) a ↔ f.Reads members a := by
  rw [reads_iff_of_field? (field?_cons_self hname), reads_iff_of_field? (field?_of_notMem hname)]
  exact hs.null hp a

/-- A value is read like one that it is changed to. -/
theorem Sound.reads_change_iff (hs : f.Sound) (hc : Change f.shape v w) :
    f.Reads ((f.name, v) :: members) a ↔ f.Reads ((f.name, w) :: members) a := by
  by_cases hname : f.name ∈ members.map (·.1)
  · exact iff_of_false (not_reads_of_field? (field?_cons_of_mem hname))
      (not_reads_of_field? (field?_cons_of_mem hname))
  · rw [reads_iff_of_field? (field?_cons_self hname), reads_iff_of_field? (field?_cons_self hname)]
    exact hs.change hc a

theorem Sound.not_reads_missing (hs : f.Sound) (hp : f.presence = .required)
    (hname : f.name ∉ members.map (·.1)) : ¬ f.Reads members a := by
  rw [reads_iff_of_field? (field?_of_notMem hname)]
  exact hs.absent hp a

theorem Sound.not_reads_faulty (hs : f.Sound) (hm : (f.name, v) ∈ members)
    (hf : Faulty f.shape v) : ¬ f.Reads members a := by
  rcases field?_of_mem hm with hfield | hfield
  · rw [reads_iff_of_field? hfield]
    exact hs.faulty hf a
  · exact not_reads_of_field? hfield

end

end RecordField

/-- The decoder reads a record field by field. -/
def Decodes {α : Type} (fields : List (RecordField α)) (decode : Json → Option α) : Prop :=
  ∀ v a, decode v = some a ↔ ∃ values, toFields? (fields.map (·.name)) v = some values ∧
    List.Forall₂ (fun f value => f.accepts a value) fields values

section
variable {α : Type} {fields : List (RecordField α)} {decode : Json → Option α}
  {members members' : List (String × Json)}

theorem exists_mapM_iff {γ δ : Type} {g : γ → Option δ} {R : γ → δ → Prop} (l : List γ) :
    (∃ ds, l.mapM g = some ds ∧ List.Forall₂ R l ds) ↔ ∀ c ∈ l, ∃ d, g c = some d ∧ R c d := by
  induction l with
  | nil => simp
  | cons c l ih =>
    rw [List.forall_mem_cons, ← ih]
    simp only [List.mapM_cons, Option.bind_eq_bind, Option.bind_eq_some_iff, Option.pure_def,
      Option.some.injEq]
    constructor
    · rintro ⟨_, ⟨d, hd, ds, hds, rfl⟩, h⟩
      obtain ⟨hR, hl⟩ := List.forall₂_cons.1 h
      exact ⟨⟨d, hd, hR⟩, ds, hds, hl⟩
    · rintro ⟨⟨d, hd, hR⟩, ds, hds, hl⟩
      exact ⟨d :: ds, ⟨d, hd, ds, hds, rfl⟩, .cons hR hl⟩

theorem Decodes.object_iff (h : Decodes fields decode) {a : α} :
    decode (object members) = some a ↔ ∀ f ∈ fields, f.Reads members a := by
  rw [h]
  simp only [toFields?_object_eq, List.mapM_map]
  exact exists_mapM_iff fields

theorem Decodes.congr (h : Decodes fields decode)
    (hr : ∀ f ∈ fields, ∀ a, f.Reads members a ↔ f.Reads members' a) :
    decode (object members) = decode (object members') := by
  refine Option.ext fun a => ?_
  rw [h.object_iff, h.object_iff]
  exact forall₂_congr fun f hf => hr f hf a

theorem Decodes.eq_none (h : Decodes fields decode) {f : RecordField α} (hf : f ∈ fields)
    (hr : ∀ a, ¬ f.Reads members a) : decode (object members) = none :=
  Option.eq_none_iff_forall_ne_some.2 fun a ha => hr a (h.object_iff.1 ha f hf)

/-- A change that matters only to one field has to leave what this field reads. -/
theorem Decodes.congr_of_field (h : Decodes fields decode) (hn : (fields.map (·.name)).Nodup)
    {g : RecordField α} (hg : g ∈ fields) (hr : ∀ a, g.Reads members a ↔ g.Reads members' a)
    (hother : ∀ f : RecordField α, g.name ≠ f.name →
      ∀ a, f.Reads members a ↔ f.Reads members' a) :
    decode (object members) = decode (object members') := by
  refine h.congr fun f hf => ?_
  by_cases hfn : g.name = f.name
  · obtain rfl := List.inj_on_of_nodup_map hn hg hf hfn
    exact hr
  · exact hother f hfn

/-- The field with an entry of the shape. -/
theorem exists_field {name : String} {presence : Presence} {shape : Shape}
    (h : (name, presence, shape) ∈ fields.map (·.entry)) :
    ∃ f ∈ fields, f.name = name ∧ f.presence = presence ∧ f.shape = shape := by
  obtain ⟨f, hf, he⟩ := List.mem_map.1 h
  simp only [RecordField.entry, Prod.mk.injEq] at he
  exact ⟨f, hf, he⟩

theorem map_fst_entry (fields : List (RecordField α)) :
    (fields.map (·.entry)).map (·.1) = fields.map (·.name) :=
  List.map_map

/-- A decoder that reads a record field by field keeps to its shape. -/
theorem Decodes.keepsTo (h : Decodes fields decode) (hn : (fields.map (·.name)).Nodup)
    (hs : ∀ f ∈ fields, f.Sound) : KeepsTo (.record (fields.map (·.entry))) decode where
  change hc := by
    cases hc with
    | permute hp => exact h.congr fun f _ a => by rw [RecordField.Reads, field?_perm hp]; rfl
    | add v hname =>
      rw [map_fst_entry] at hname
      refine h.congr fun f hf a => (RecordField.reads_cons_of_ne fun hfn => hname ?_).symm
      exact hfn ▸ List.mem_map_of_mem hf
    | drop hm hname =>
      obtain ⟨g, hg, rfl, hp, -⟩ := exists_field hm
      exact h.congr_of_field hn hg (fun _ => (hs g hg).reads_null_iff hp hname)
        fun f hfn _ => RecordField.reads_cons_of_ne hfn
    | field hm hc =>
      obtain ⟨g, hg, rfl, -, rfl⟩ := exists_field hm
      exact h.congr_of_field hn hg (fun _ => (hs g hg).reads_change_iff hc)
        fun f hfn _ => (RecordField.reads_cons_of_ne hfn).trans
          (RecordField.reads_cons_of_ne hfn).symm
  faulty hf := by
    cases hf with
    | repeated hm hcount =>
      rw [map_fst_entry] at hm
      obtain ⟨f, hf, rfl⟩ := List.mem_map.1 hm
      exact h.eq_none hf fun _ => RecordField.not_reads_of_field? (field?_of_count hcount)
    | missing hm hname =>
      obtain ⟨f, hf, rfl, hp, -⟩ := exists_field hm
      exact h.eq_none hf fun _ => (hs f hf).not_reads_missing hp hname
    | field hm hv hfaulty =>
      obtain ⟨f, hf, rfl, -, rfl⟩ := exists_field hm
      exact h.eq_none hf fun _ => (hs f hf).not_reads_faulty hv hfaulty

end

end CliParity.Json
