import CliParity.Proofs.Json.Shape
import CliParity.Proofs.Registry.Document
import Mathlib.Logic.Relation

/-!
# A registry is read from every presentation of its document

A text presents a registry (`Registry.Presents`) if it spells the registry's value after some
changes that leave the records the same: their members in another order, unknown members, null
members left out. The document of a registry presents it (`Registry.presents_render`). Every decoder
keeps to the shape of what it reads (`Argument.keepsTo`, `Command.keepsTo`, `Field.keepsTo`,
`Registry.keepsTo`), so that from each of these texts the registry is read, and from none where a
field comes twice or is missing.
-/

set_option autoImplicit false

namespace CliParity

open Json

/-! ## Shapes -/

/-- The record of an argument. -/
def Argument.shape : Shape := .record [("name", .required, .plain), ("type", .required, .plain)]

/-- The record of a command. -/
def Command.shape : Shape :=
  .record
    [("name", .required, .plain), ("category", .required, .plain),
     ("params", .required, .list Argument.shape), ("response_format", .optional, .plain),
     ("description", .required, .plain), ("serial_only", .required, .plain),
     ("has_param", .required, .plain)]

/-- The record of a field. -/
def Field.shape : Shape := .record [("type", .required, .plain), ("array_size", .optional, .plain)]

/-- The record of a registry. -/
def Registry.shape : Shape :=
  .record
    [("version", .required, .plain), ("source_url", .required, .plain),
     ("generated_by", .required, .plain), ("total_commands", .required, .plain),
     ("categories", .required, .plain), ("commands", .required, .list Command.shape),
     ("commands_by_category", .required, .map (.list Command.shape)),
     ("node_prefs", .required, .map Field.shape)]

/-! ## Decoders -/

theorem sound_plain {α β : Type} (name : String) (decode : Json → Option β) (part : α → β) :
    (RecordField.required name .plain decode part).Sound :=
  RecordField.sound_required (keepsTo_plain decode) name part

namespace Argument

/-- How an argument is read. -/
def recordFields : List (RecordField Argument) :=
  [.required "name" .plain toText? (·.name),
   .required "type" .plain ArgumentType.ofJson? (·.type)]

theorem decodes : Decodes recordFields ofJson? := by
  rintro v ⟨name, type⟩
  simp only [ofJson?, Option.bind_eq_bind, Option.bind_eq_some_iff]
  refine exists_congr fun values => and_congr Iff.rfl ?_
  split
  · simp [recordFields, RecordField.required, Option.bind_eq_some_iff]
  · rename_i hshape
    refine iff_of_false (Option.some_ne_none _).symm fun h => ?_
    simp only [recordFields, List.forall₂_cons_left_iff, List.forall₂_nil_left_iff] at h
    grind

theorem keepsTo : KeepsTo shape ofJson? := by
  refine decodes.keepsTo (by simp [recordFields, RecordField.required]) ?_
  simp only [recordFields, List.forall_mem_cons, List.not_mem_nil, false_implies, implies_true,
    and_true]
  exact ⟨sound_plain .., sound_plain ..⟩

end Argument

namespace Command

/-- How a command is read. -/
def recordFields : List (RecordField Command) :=
  [.required "name" .plain toText? (·.name),
   .required "category" .plain Category.ofJson? (·.category),
   .required "params" (.list Argument.shape) (toList? Argument.ofJson?) (·.arguments),
   .optional "response_format" toText? (·.replyFormat),
   .required "description" .plain toText? (·.description),
   .required "serial_only" .plain toBool? (·.serialOnly),
   .required "has_param" .plain toBool? (·.takesArgument)]

theorem decodes : Decodes recordFields ofJson? := by
  rintro v ⟨name, category, arguments, replyFormat, description, serialOnly, takesArgument⟩
  simp only [ofJson?, Option.bind_eq_bind, Option.bind_eq_some_iff]
  refine exists_congr fun values => and_congr Iff.rfl ?_
  split
  · simp [recordFields, RecordField.required, RecordField.optional, Option.bind_eq_some_iff,
      -Bool.exists_bool]
  · rename_i hshape
    refine iff_of_false (Option.some_ne_none _).symm fun h => ?_
    simp only [recordFields, List.forall₂_cons_left_iff, List.forall₂_nil_left_iff] at h
    grind

theorem keepsTo : KeepsTo shape ofJson? := by
  refine decodes.keepsTo (by simp [recordFields, RecordField.required, RecordField.optional]) ?_
  simp only [recordFields, List.forall_mem_cons, List.not_mem_nil, false_implies, implies_true,
    and_true]
  exact ⟨sound_plain .., sound_plain .., RecordField.sound_required Argument.keepsTo.list _ _,
    RecordField.sound_optional .., sound_plain .., sound_plain .., sound_plain ..⟩

theorem keepsTo_list : KeepsTo (.list shape) listOfJson? := keepsTo.list

end Command

namespace Field

/-- How a field is read. -/
def recordFields : List (RecordField Field) :=
  [.required "type" .plain PrimitiveType.ofJson? (·.type),
   .optional "array_size" toWord? (·.arrayLength)]

theorem decodes : Decodes recordFields ofJson? := by
  rintro v ⟨type, arrayLength⟩
  simp only [ofJson?, Option.bind_eq_bind, Option.bind_eq_some_iff]
  refine exists_congr fun values => and_congr Iff.rfl ?_
  split
  · simp [recordFields, RecordField.required, RecordField.optional, Option.bind_eq_some_iff]
  · rename_i hshape
    refine iff_of_false (Option.some_ne_none _).symm fun h => ?_
    simp only [recordFields, List.forall₂_cons_left_iff, List.forall₂_nil_left_iff] at h
    grind

theorem keepsTo : KeepsTo shape ofJson? := by
  refine decodes.keepsTo (by simp [recordFields, RecordField.required, RecordField.optional]) ?_
  simp only [recordFields, List.forall_mem_cons, List.not_mem_nil, false_implies, implies_true,
    and_true]
  exact ⟨sound_plain .., RecordField.sound_optional ..⟩

end Field

namespace Registry

/-- How a registry is read. -/
def recordFields : List (RecordField Registry) :=
  [.required "version" .plain toText? (·.provenance.version),
   .required "source_url" .plain toText? (·.provenance.sourceUrl),
   .required "generated_by" .plain toText? (·.provenance.generatedBy),
   .required "total_commands" .plain toWord? (·.totalCommands),
   .required "categories" .plain (toList? Category.ofJson?) (·.categories),
   .required "commands" (.list Command.shape) Command.listOfJson? (·.commands),
   .required "commands_by_category" (.map (.list Command.shape)) groupsOfJson?
     (·.commandsByCategory),
   .required "node_prefs" (.map Field.shape) nodePrefsOfJson? (·.nodePrefs)]

theorem decodes : Decodes recordFields ofJson? := by
  rintro v ⟨⟨version, sourceUrl, generatedBy⟩, total, categories, commands, groups, nodePrefs⟩
  simp only [ofJson?, Option.bind_eq_bind, Option.bind_eq_some_iff]
  refine exists_congr fun values => and_congr Iff.rfl ?_
  split
  · simp [recordFields, RecordField.required, Option.bind_eq_some_iff]
  · rename_i hshape
    refine iff_of_false (Option.some_ne_none _).symm fun h => ?_
    simp only [recordFields, List.forall₂_cons_left_iff, List.forall₂_nil_left_iff] at h
    grind

theorem keepsTo_groups : KeepsTo (.map (.list Command.shape)) groupsOfJson? :=
  Command.keepsTo_list.map.bind _

theorem keepsTo_nodePrefs : KeepsTo (.map Field.shape) nodePrefsOfJson? := by
  have h := Field.keepsTo.map.bind (some ∘ OrderedMap.ofList)
  simp only [← Option.map_eq_bind] at h
  exact h

theorem keepsTo : KeepsTo shape ofJson? := by
  refine decodes.keepsTo (by simp [recordFields, RecordField.required]) ?_
  simp only [recordFields, List.forall_mem_cons, List.not_mem_nil, false_implies, implies_true,
    and_true]
  exact ⟨sound_plain .., sound_plain .., sound_plain .., sound_plain .., sound_plain ..,
    RecordField.sound_required Command.keepsTo_list _ _,
    RecordField.sound_required keepsTo_groups _ _,
    RecordField.sound_required keepsTo_nodePrefs _ _⟩

/-! ## Texts -/

/-- The text spells the value of the registry, after some changes of the presentation. -/
def Presents (r : Registry) (text : String) : Prop :=
  ∃ v, Relation.ReflTransGen (Change shape) r.toJson v ∧ Spells (tokens v) text.toList

/-- In a record of the text a field comes twice, or one is missing that has to be present. -/
def FaultyText (text : String) : Prop :=
  ∃ v, Faulty shape v ∧ Spells (tokens v) text.toList

/-- The document of a registry presents it. -/
theorem presents_render (r : Registry) : r.Presents r.render :=
  ⟨r.toJson, .refl, spells_pretty r.proper_toJson⟩

theorem read?_of_spells {v : Json} {text : String} (h : Spells (tokens v) text.toList) :
    read? text = ofJson? v := by
  rw [read?, Json.read?_of_spells h, Option.bind_some]

/-- Changes of the presentation leave what is decoded the same. -/
theorem ofJson?_eq_of_changes {v w : Json} (h : Relation.ReflTransGen (Change shape) v w) :
    ofJson? v = ofJson? w := by
  induction h with
  | refl => rfl
  | tail _ hc ih => rw [ih, keepsTo.change hc]

/-- **A registry is read from every text that presents it,** its document being one. **From no text
with a fault is any registry read.** -/
theorem read?_presented {r : Registry} (h : r.FitsWords) :
    r.Presents r.render ∧ (∀ text, r.Presents text → read? text = some r) ∧
      ∀ text, FaultyText text → read? text = none := by
  refine ⟨r.presents_render, ?_, ?_⟩
  · rintro text ⟨v, hchanges, hspells⟩
    rw [read?_of_spells hspells, ← ofJson?_eq_of_changes hchanges, ofJson?_toJson h]
  · rintro text ⟨v, hfaulty, hspells⟩
    rw [read?_of_spells hspells, keepsTo.faulty hfaulty]

/-- A registry with a field and no commands. -/
def gainOnly : Registry where
  provenance := ⟨"2024-01-31", "", "tool"⟩
  totalCommands := 0
  categories := []
  commands := []
  commandsByCategory := ⟨[], by decide⟩
  nodePrefs := ⟨[("gain", ⟨.float, none⟩)], by decide⟩

/-- Its members but the last. -/
def gainOnlyMembers : List (String × Json) :=
  [("version", .str "2024-01-31"), ("source_url", .str ""), ("generated_by", .str "tool"),
   ("total_commands", .nat 0), ("categories", .arr []), ("commands", .arr []),
   ("commands_by_category", object [])]

/-- Its value with the field first and no array length, behind an unknown member. -/
def gainFirst : Json :=
  object (("note", .arr [.null]) ::
    ("node_prefs", object [("gain", object [("type", .str "float")])]) :: gainOnlyMembers)

theorem changes_gainFirst : Relation.ReflTransGen (Change shape) gainOnly.toJson gainFirst := by
  have within {v w : Json} (h : Change Field.shape v w) :
      Change shape (object (("node_prefs", object [("gain", v)]) :: gainOnlyMembers))
        (object (("node_prefs", object [("gain", w)]) :: gainOnlyMembers)) := by
    have hentry : Change (.map Field.shape) (object ([] ++ ("gain", v) :: []))
        (object ([] ++ ("gain", w) :: [])) := .entry h
    exact .field (by simp : ("node_prefs", Presence.required, Shape.map Field.shape) ∈ _) hentry
  have hfirst : Change shape gainOnly.toJson _ :=
    .permute (List.perm_append_comm : (gainOnlyMembers ++ [("node_prefs",
      object [("gain", object [("type", .str "float"), ("array_size", .null)])])]).Perm _)
  have hswap := within (.permute (.swap ("array_size", .null) ("type", .str "float") []))
  have hdrop : Change Field.shape (object [("array_size", .null), ("type", .str "float")])
      (object [("type", .str "float")]) :=
    .drop (by simp : ("array_size", Presence.optional, Shape.plain) ∈ _) (by simp)
  have hadd : Change shape _ gainFirst := .add (.arr [.null]) (by simp)
  exact .tail (.tail (.tail (.single hfirst) hswap) (within hdrop)) hadd

theorem proper_gainOnlyMembers : ∀ m ∈ gainOnlyMembers, m.2.Proper := by
  simp only [gainOnlyMembers, List.forall_mem_cons, List.not_mem_nil, false_implies, implies_true,
    and_true]
  exact ⟨proper_str _, proper_str _, proper_str _, proper_nat _, .arr nofun, .arr nofun, .obj nofun⟩

theorem proper_gainFirst : gainFirst.Proper := by
  have hfield : (object [("type", .str "float")]).Proper := proper_object (by simp [proper_str])
  have hnodePrefs : (object [("gain", object [("type", .str "float")])]).Proper :=
    proper_object (by simpa using hfield)
  have hnull : Json.null.Proper := .scalar trivial
  have hnote : (Json.arr [.null]).Proper := .arr (by simpa using hnull)
  exact proper_object (List.forall_mem_cons.2
    ⟨hnote, List.forall_mem_cons.2 ⟨hnodePrefs, proper_gainOnlyMembers⟩⟩)

/-- The unknown member is passed over; a second version is a fault. -/
theorem gainOnly_presented :
    gainOnly.FitsWords ∧ read? gainFirst.pretty = some gainOnly ∧
      read? (object (("version", .null) :: gainOnlyMembers)).pretty = none := by
  have h : gainOnly.FitsWords := ⟨by decide, by simp [gainOnly, Field.FitsWord]⟩
  obtain ⟨-, hread, hfaulty⟩ := read?_presented h
  have htwice : Faulty shape (object (("version", .null) :: gainOnlyMembers)) :=
    .repeated (by simp : "version" ∈ _) (by simp [gainOnlyMembers])
  have hproper : (object (("version", .null) :: gainOnlyMembers)).Proper :=
    proper_object (List.forall_mem_cons.2 ⟨.scalar trivial, proper_gainOnlyMembers⟩)
  exact ⟨h, hread _ ⟨gainFirst, changes_gainFirst, spells_pretty proper_gainFirst⟩,
    hfaulty _ ⟨_, htwice, spells_pretty hproper⟩⟩

end Registry

end CliParity
