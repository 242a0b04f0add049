import CliParity.Proofs.Json.Numeral
import CliParity.Proofs.OrderedMap
import CliParity.Proofs.Preferences.Declaration
import CliParity.Proofs.Preferences.Struct
import CliParity.Proofs.Registry.Document

/-!
# A struct written line by line

A struct with one declaration on each line has the fields that are read off its lines
(`layout_structText_eq`). They are those declared, unless the name of some type only ends in that of
a primitive one (`layout_structText`). Where the fields of a layout are written as declarations,
that layout is read back (`layout_structText_ofEntry`).
-/

set_option autoImplicit false

namespace CliParity

open Text

/-- A struct of this name with these declarations, one on each line. -/
def structText (structName : String) (ds : List Declaration) : String :=
  .ofList (structHead structName ++
    [' ', '\x7b', '\n'] ++ ds.flatMap Declaration.line ++ ['\x7d', ';'])

example : structText "N" [⟨⟨[' ', ' '], rfl⟩, "char", "a", "4", by decide, by decide, by decide⟩] =
    "struct N \x7b\n  char a[4];\n\x7d;" := by decide

variable {structName : String} {ds : List Declaration} {pre : String}

/-- The struct has the fields that are read off its lines, behind any text that opens no struct of
this name and in front of any text. -/
theorem layout_structText_eq (hname : IsWord structName.toList)
    (hpre : ¬ OpensStruct structName pre.toList) (ds : List Declaration) (post : String) :
    layout structName (pre ++ structText structName ds ++ post) =
      .ofList (ds.filterMap Declaration.seen?) := by
  have hbrace : '\x7d' ∉ '\n' :: ds.flatMap Declaration.line := by
    rw [List.mem_cons, List.mem_flatMap, not_or]
    exact ⟨by decide, fun ⟨d, _, h⟩ => d.brace_not_mem_line h⟩
  have hbody : structBody? structName (pre ++ structText structName ds ++ post).toList =
      some ('\n' :: ds.flatMap Declaration.line) := by
    have htext : (pre ++ structText structName ds ++ post).toList =
        pre.toList ++ (structHead structName ++ ([' '] ++ '\x7b' ::
          (('\n' :: ds.flatMap Declaration.line) ++ '\x7d' :: ';' :: post.toList))) := by
      simp [structText]
    rw [htext]
    exact structBody?_append hname hpre ⟨[' '], rfl⟩ (List.cons_ne_nil _ _) hbrace _
  have hfields : allMatches Field.recogniser ('\n' :: ds.flatMap Declaration.line) =
      ds.filterMap Declaration.seen? := by
    rw [Field.allMatches_cons (by decide), Declaration.allMatches_lines]
  rw [layout, hbody]
  exact congrArg OrderedMap.ofList hfields

/-! ## The fields that are declared -/

theorem filterMap_seen?_of_whole (h : ∀ d ∈ ds, d.Whole) :
    ds.filterMap Declaration.seen? = ds.filterMap Declaration.field? :=
  List.filterMap_congr fun d hd => Declaration.seen?_eq_field?_iff.2 (h d hd)

/-- Where no name is declared twice, a field that is read without being declared shows. -/
theorem whole_of_ofList_seen?_eq (hnames : (ds.map (·.name)).Nodup)
    (h : OrderedMap.ofList (ds.filterMap Declaration.seen?) =
      .ofList (ds.filterMap Declaration.field?)) : ∀ d ∈ ds, d.Whole := by
  intro d hd
  rw [← Declaration.seen?_eq_field?_iff]
  cases hseen : d.seen? with
  | none => exact (Declaration.field?_eq_none_of_seen? hseen).symm
  | some e =>
    have hmem : e ∈ (OrderedMap.ofList (ds.filterMap Declaration.field?)).entries := by
      rw [← h, OrderedMap.entries_ofList (hnames.sublist (Declaration.names_seen?_sublist ds))]
      exact List.mem_filterMap.2 ⟨d, hd, hseen⟩
    obtain ⟨d', hd', hfield⟩ := List.mem_filterMap.1 (OrderedMap.mem_of_mem_ofList hmem)
    -- the declaration of this field has the same name, so it is this one
    have hname : d'.name = d.name := by
      rw [← Declaration.fst_of_seen? hseen,
        Declaration.fst_of_seen? (Declaration.seen?_of_field? hfield)]
    obtain rfl := List.inj_on_of_nodup_map hnames hd' hd hname
    exact hfield.symm

/-- The fields of a struct are those read off its lines. They are the declared ones if the name of
no type only ends in that of a primitive one, and where the names are distinct only if so. -/
theorem layout_structText (hname : IsWord structName.toList)
    (hpre : ¬ OpensStruct structName pre.toList) (ds : List Declaration) (post : String) :
    layout structName (pre ++ structText structName ds ++ post) =
        .ofList (ds.filterMap Declaration.seen?) ∧
      ((∀ d ∈ ds, d.Whole) → layout structName (pre ++ structText structName ds ++ post) =
        .ofList (ds.filterMap Declaration.field?)) ∧
      ((ds.map (·.name)).Nodup → layout structName (pre ++ structText structName ds ++ post) =
        .ofList (ds.filterMap Declaration.field?) → ∀ d ∈ ds, d.Whole) := by
  rw [layout_structText_eq hname hpre]
  exact ⟨rfl, fun h => congrArg _ (filterMap_seen?_of_whole h), whole_of_ofList_seen?_eq⟩

/-- A declaration of a type whose name ends in `int`. -/
def pointDeclaration : Declaration where
  indent := ⟨[' ', ' '], rfl⟩
  typeName := "point"
  name := "x"
  arrayLength := none
  isWord_typeName := by decide
  isWord_name := by decide
  isWord_arrayLength := by simp

theorem layout_structText_point : IsWord "N".toList ∧ ¬ OpensStruct "N" "".toList ∧
    layout "N" ("" ++ structText "N" [pointDeclaration] ++ "") = .ofList [("x", ⟨.int, none⟩)] ∧
    layout "N" ("" ++ structText "N" [pointDeclaration] ++ "") ≠
      .ofList ([pointDeclaration].filterMap Declaration.field?) := by
  have hname : IsWord "N".toList := by decide
  have hpre : ¬ OpensStruct "N" "".toList := not_opensStruct (by decide)
  obtain ⟨hseen, -, hwhole⟩ := layout_structText hname hpre [pointDeclaration] ""
  refine ⟨hname, hpre, hseen, fun h => ?_⟩
  have hint := hwhole (by decide) h pointDeclaration List.mem_cons_self .int (by decide)
  exact absurd hint (by decide)

/-! ## Fields written as declarations -/

/-- The declaration of a field, with two blanks in front. -/
def Declaration.ofEntry (e : String × Field) (h : IsWord e.1.toList) : Declaration where
  indent := ⟨[' ', ' '], rfl⟩
  typeName := e.2.type.typeName
  name := e.1
  arrayLength := e.2.arrayLength.map fun n => String.ofList (Nat.toDigits 10 n)
  isWord_typeName := PrimitiveType.isWord_typeName e.2.type
  isWord_name := h
  isWord_arrayLength := by
    intro s hs
    obtain ⟨n, -, rfl⟩ := Option.map_eq_some_iff.1 hs
    rw [String.toList_ofList]
    exact ⟨Nat.toDigits_ne_nil, List.all_eq_true.2 fun c hc =>
      isWord_of_isAsciiDigit (Json.Numeral.isAsciiDigit_of_mem_toDigits hc)⟩

theorem Declaration.seen?_ofEntry {e : String × Field} (h : IsWord e.1.toList)
    (hlength : e.2.FitsWord) : (ofEntry e h).seen? = some e := by
  obtain ⟨name, type, arrayLength⟩ := e
  have hstored : (ofEntry ⟨name, type, arrayLength⟩ h).storedLength = arrayLength := by
    cases arrayLength with
    | none => rfl
    | some n =>
      have hn := Json.Numeral.wordValue?_toDigits (hlength n rfl)
      simpa [storedLength, ofEntry] using hn
  apply seen?_of_field?
  rw [field?, hstored, ofEntry, PrimitiveType.ofTypeName?_eq_some_iff.2 rfl]
  rfl

theorem filterMap_seen?_ofEntry {entries : List (String × Field)}
    (hnames : ∀ e ∈ entries, IsWord e.1.toList) (hlengths : ∀ e ∈ entries, e.2.FitsWord) :
    (entries.pmap Declaration.ofEntry hnames).filterMap Declaration.seen? = entries := by
  induction entries with
  | nil => rfl
  | cons e entries ih =>
    rw [List.forall_mem_cons] at hlengths
    rw [List.pmap_cons, List.filterMap_cons_some (Declaration.seen?_ofEntry _ hlengths.1),
      ih _ hlengths.2]

/-- The fields of a layout are read back from their declarations, in order. The text in front may be
any that opens no struct of this name, as is each without `struct` (`not_opensStruct`). -/
theorem layout_structText_ofEntry (hname : IsWord structName.toList)
    (hpre : ¬ OpensStruct structName pre.toList) {m : OrderedMap String Field}
    (hnames : ∀ e ∈ m.entries, IsWord e.1.toList) (hlengths : ∀ e ∈ m.entries, e.2.FitsWord)
    (post : String) :
    layout structName
      (pre ++ structText structName (m.entries.pmap Declaration.ofEntry hnames) ++ post) = m := by
  rw [layout_structText_eq hname hpre, filterMap_seen?_ofEntry hnames hlengths,
    OrderedMap.ofList_entries]

/-- Two fields, of which the second is an array. -/
def twoFields : OrderedMap String Field where
  entries := [("airtime_factor", ⟨.float, none⟩), ("node_name", ⟨.char, some 32⟩)]
  nodup := by decide

theorem isWord_of_mem_twoFields : ∀ e ∈ twoFields.entries, IsWord e.1.toList := by decide

theorem layout_structText_twoFields :
    IsWord "NodePrefs".toList ∧ ¬ OpensStruct "NodePrefs" "#pragma once\n".toList ∧
      (∀ e ∈ twoFields.entries, e.2.FitsWord) ∧
      layout "NodePrefs" ("#pragma once\n" ++ structText "NodePrefs"
        (twoFields.entries.pmap Declaration.ofEntry isWord_of_mem_twoFields) ++ "\n") =
          twoFields := by
  have hname : IsWord "NodePrefs".toList := by decide
  have hpre : ¬ OpensStruct "NodePrefs" "#pragma once\n".toList := not_opensStruct (by decide)
  have hlengths : ∀ e ∈ twoFields.entries, e.2.FitsWord := by
    simp [twoFields, Field.FitsWord, wordLimit]
  exact ⟨hname, hpre, hlengths,
    layout_structText_ofEntry hname hpre isWord_of_mem_twoFields hlengths "\n"⟩

end CliParity
