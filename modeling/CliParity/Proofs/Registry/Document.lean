import CliParity.Proofs.Json.Decode
import CliParity.Proofs.Json.Layout
import CliParity.Proofs.OrderedMap
import CliParity.Registry.Document

/-!
# A registry is read back from its document

Each part of a registry is decoded from the value that it is written as, up to the whole
(`Registry.ofJson?_toJson`), provided that its numbers fit a machine word. As all numbers are
written as numerals (`Registry.proper_toJson`), a registry is read back from its document
(`Registry.read?_render`), whether it was assembled or not.
-/

set_option autoImplicit false

namespace CliParity

open Json

/-! ## Labels -/

theorem Category.ofJson?_label (c : Category) : Category.ofJson? (.str c.label) = some c := by
  cases c <;> rfl

theorem ArgumentType.ofJson?_label (t : ArgumentType) :
    ArgumentType.ofJson? (.str t.label) = some t := by
  cases t <;> rfl

theorem PrimitiveType.ofJson?_typeName (t : PrimitiveType) :
    PrimitiveType.ofJson? (.str t.typeName) = some t := by
  cases t <;> rfl

/-! ## Commands and fields -/

theorem Argument.ofJson?_toJson (a : Argument) : Argument.ofJson? a.toJson = some a := by
  have hf := toFields?_object [("name", .str a.name), ("type", .str a.type.label)] (by simp)
  simp only [List.map_cons, List.map_nil] at hf
  simp [Argument.ofJson?, Argument.toJson, hf, required?, ArgumentType.ofJson?_label]

theorem Argument.proper_toJson (a : Argument) : a.toJson.Proper := by
  refine proper_object ?_
  simp only [List.forall_mem_cons, List.not_mem_nil, false_implies, implies_true, and_true]
  exact ⟨proper_str _, proper_str _⟩

theorem Command.ofJson?_toJson (c : Command) : Command.ofJson? c.toJson = some c := by
  have hf := toFields?_object
    [("name", .str c.name), ("category", .str c.category.label),
     ("params", .arr (c.arguments.map Argument.toJson)),
     ("response_format", .ofOption .str c.replyFormat), ("description", .str c.description),
     ("serial_only", .bool c.serialOnly), ("has_param", .bool c.takesArgument)] (by simp)
  simp only [List.map_cons, List.map_nil] at hf
  have ha : toList? Argument.ofJson? (.arr (c.arguments.map Argument.toJson)) = some c.arguments :=
    toList?_arr fun a _ => a.ofJson?_toJson
  have hr : optional? toText? (some (.ofOption .str c.replyFormat)) = some c.replyFormat :=
    optional?_ofOption fun text _ => ⟨by simp [str, null], rfl⟩
  simp [Command.ofJson?, Command.toJson, hf, required?, Category.ofJson?_label, ha, hr]

theorem Command.proper_toJson (c : Command) : c.toJson.Proper := by
  refine proper_object ?_
  simp only [List.forall_mem_cons, List.not_mem_nil, false_implies, implies_true, and_true]
  exact ⟨proper_str _, proper_str _, proper_arr Argument.proper_toJson _,
    proper_ofOption proper_str _, proper_str _, proper_bool _, proper_bool _⟩

theorem Command.listOfJson?_listToJson (commands : List Command) :
    Command.listOfJson? (Command.listToJson commands) = some commands :=
  toList?_arr fun c _ => c.ofJson?_toJson

/-- The length of the field, if it is an array, fits a machine word. -/
def Field.FitsWord (f : Field) : Prop := ∀ n ∈ f.arrayLength, n < Text.wordLimit

theorem Field.ofJson?_toJson {f : Field} (h : f.FitsWord) : Field.ofJson? f.toJson = some f := by
  have hf := toFields?_object [("type", .str f.type.typeName),
    ("array_size", .ofOption .nat f.arrayLength)] (by simp)
  simp only [List.map_cons, List.map_nil] at hf
  have hn : optional? toWord? (some (.ofOption .nat f.arrayLength)) = some f.arrayLength :=
    optional?_ofOption fun n hn => ⟨by simp [nat, null], toWord?_nat (h n hn)⟩
  simp [Field.ofJson?, Field.toJson, hf, required?, PrimitiveType.ofJson?_typeName, hn]

theorem Field.proper_toJson (f : Field) : f.toJson.Proper := by
  refine proper_object ?_
  simp only [List.forall_mem_cons, List.not_mem_nil, false_implies, implies_true, and_true]
  exact ⟨proper_str _, proper_ofOption proper_nat _⟩

namespace Registry

/-! ## The whole -/

/-- The numbers of the registry fit a machine word. -/
structure FitsWords (r : Registry) : Prop where
  total : r.totalCommands < Text.wordLimit
  fields : ∀ e ∈ r.nodePrefs.entries, e.2.FitsWord

/-- The value of the commands of each category. -/
def groupsToJson (groups : OrderedMap Category (List Command)) : Json :=
  object (groups.entries.map fun e => (e.1.label, Command.listToJson e.2))

/-- The value of the fields by name. -/
def nodePrefsToJson (nodePrefs : OrderedMap String Field) : Json :=
  object (nodePrefs.entries.map fun e => (e.1, e.2.toJson))

theorem groupsOfJson?_groupsToJson (groups : OrderedMap Category (List Command)) :
    groupsOfJson? (groupsToJson groups) = some groups := by
  have hm := toMembers?_object Category.label fun e (_ : e ∈ groups.entries) =>
    Command.listOfJson?_listToJson e.2
  have hl : (groups.entries.map fun e => (e.1.label, e.2)).mapM (fun m =>
      (Category.ofLabel? m.1).map fun category => (category, m.2)) = some groups.entries := by
    have hk : ∀ c : Category, Category.ofLabel? c.label = some c := Category.ofJson?_label
    have := mapM_map (f := fun e : Category × List Command => (e.1.label, e.2))
      (g := fun m => (Category.ofLabel? m.1).map fun category => (category, m.2)) (k := id)
      fun e (_ : e ∈ groups.entries) => by rw [hk, Option.map_some, id]
    rwa [List.map_id] at this
  refine (congrArg (Option.bind · _) hm).trans ?_
  refine (congrArg (Option.bind · _) hl).trans ?_
  exact congrArg some groups.ofList_entries

theorem nodePrefsOfJson?_nodePrefsToJson {nodePrefs : OrderedMap String Field}
    (h : ∀ e ∈ nodePrefs.entries, e.2.FitsWord) :
    nodePrefsOfJson? (nodePrefsToJson nodePrefs) = some nodePrefs := by
  have hm := toMembers?_object id fun e (he : e ∈ nodePrefs.entries) =>
    Field.ofJson?_toJson (h e he)
  refine (congrArg (Option.map _) hm).trans ?_
  exact congrArg some ((congrArg _ (List.map_id _)).trans nodePrefs.ofList_entries)

/-- The members of a registry's value. -/
def members (r : Registry) : List (String × Json) :=
  [("version", .str r.provenance.version), ("source_url", .str r.provenance.sourceUrl),
   ("generated_by", .str r.provenance.generatedBy), ("total_commands", .nat r.totalCommands),
   ("categories", .arr (r.categories.map fun c => .str c.label)),
   ("commands", Command.listToJson r.commands),
   ("commands_by_category", groupsToJson r.commandsByCategory),
   ("node_prefs", nodePrefsToJson r.nodePrefs)]

theorem toJson_eq (r : Registry) : r.toJson = object r.members := rfl

/-- A registry is decoded from its value. -/
theorem ofJson?_toJson {r : Registry} (h : r.FitsWords) : ofJson? r.toJson = some r := by
  have hf := toFields?_object r.members (by simp [members])
  rw [← toJson_eq] at hf
  simp only [members, List.map_cons, List.map_nil] at hf
  have hc : toList? Category.ofJson? (.arr (r.categories.map fun c => .str c.label)) =
      some r.categories :=
    toList?_arr fun c _ => c.ofJson?_label
  simp [ofJson?, hf, required?, toWord?_nat h.total, hc, Command.listOfJson?_listToJson,
    groupsOfJson?_groupsToJson, nodePrefsOfJson?_nodePrefsToJson h.fields]

/-! ## The document -/

/-- All numbers of the document are written as numerals. -/
theorem proper_toJson (r : Registry) : r.toJson.Proper := by
  have hcommands (commands : List Command) : (Command.listToJson commands).Proper :=
    proper_arr Command.proper_toJson commands
  have hgroups : (groupsToJson r.commandsByCategory).Proper :=
    proper_object (List.forall_mem_map.2 fun e _ => hcommands e.2)
  have hfields : (nodePrefsToJson r.nodePrefs).Proper :=
    proper_object (List.forall_mem_map.2 fun e _ => e.2.proper_toJson)
  have hcategories := proper_arr (fun c : Category => proper_str c.label) r.categories
  rw [toJson_eq]
  refine proper_object ?_
  simp only [members, List.forall_mem_cons, List.not_mem_nil, false_implies, implies_true, and_true]
  exact ⟨proper_str _, proper_str _, proper_str _, proper_nat _, hcategories,
    hcommands r.commands, hgroups, hfields⟩

/-- **A registry is read back from its document.** -/
theorem read?_render {r : Registry} (h : r.FitsWords) : read? r.render = some r := by
  rw [read?, render, read?_pretty r.proper_toJson, Option.bind_some, ofJson?_toJson h]

/-- A registry whose number of commands and categories are not those of its commands. -/
def unassembled : Registry where
  provenance := ⟨"2024-01-31", "a \"quoted\" name\n", ""⟩
  totalCommands := 7
  categories := [.set, .get]
  commands := [⟨"get x", .get, [⟨"value", .int⟩], some "", "\t", false, true⟩]
  commandsByCategory := ⟨[(.other, []), (.get, [])], by decide⟩
  nodePrefs := ⟨[("b", ⟨.char, some 0⟩), ("a", ⟨.float, none⟩)], by decide⟩

theorem read?_render_unassembled :
    unassembled.FitsWords ∧ read? unassembled.render = some unassembled := by
  have h : unassembled.FitsWords :=
    ⟨by decide, by simp [unassembled, Field.FitsWord, Text.wordLimit]⟩
  exact ⟨h, read?_render h⟩

end Registry

end CliParity
