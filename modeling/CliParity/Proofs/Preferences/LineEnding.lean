import CliParity.Proofs.Preferences.Struct
import CliParity.Proofs.Text.LineEnding

/-!
# Line endings in a header

A declaration holds no line ending but as white space, and a struct none but in front of its body
and in it, so a header has the same fields with either line ending (`layout_crlf`). The name of the
struct is looked for as it is, so one that ends in a carriage return is met where only the other
line ending has it: `layout_crlf_iff`.
-/

set_option autoImplicit false

namespace CliParity

open Text

/-! ## Declarations -/

theorem PrimitiveType.read?_withReturns (s : List Char) :
    PrimitiveType.read? (withReturns s) =
      (PrimitiveType.read? s).map (Prod.map id withReturns) := by
  have hname : ∀ type : PrimitiveType, '\n' ∉ type.typeName.toList ∧
      type.typeName.toList.getLast? ≠ some '\r' := by
    intro type
    cases type <;> decide
  have h : ∀ type : PrimitiveType, (after? type.typeName.toList (withReturns s)).map (type, ·) =
      ((after? type.typeName.toList s).map (type, ·)).map (Prod.map id withReturns) := by
    intro type
    rw [after?_withReturns (hname type).1 (hname type).2, Option.map_map, Option.map_map]
    rfl
  simp only [PrimitiveType.read?, h, List.map_findSome?, Function.comp_def]

namespace Field

theorem readBrackets?_withReturns (s : List Char) :
    readBrackets? (withReturns s) = (readBrackets? s).map (Prod.map id withReturns) := by
  simp (disch := decide) only [readBrackets?, after?_withReturns, run?_withReturns_of_excludes,
    Option.bind_eq_bind, Option.bind_map, Option.map_bind, Function.comp_def, Option.pure_def,
    Option.map_some, Prod.map, id]

theorem read?_withReturns (s : List Char) :
    read? (withReturns s) = (read? s).map (Prod.map id withReturns) := by
  have hblank := run?_withReturns (by decide : isBlank '\r' = isBlank '\n')
  have hword := run?_withReturns_of_excludes (by decide : isWord '\r' = false) (by decide)
  rw [read?, read?, PrimitiveType.read?_withReturns]
  cases PrimitiveType.read? s with
  | none => rfl
  | some type =>
    simp only [Option.bind_eq_bind, Option.map_some, Prod.map, Option.bind_some, hblank]
    cases run? isBlank type.2 with
    | none => rfl
    | some blanks =>
      simp only [Option.map_some, Prod.map, Option.bind_some, hword]
      cases run? isWord blanks.2 with
      | none => rfl
      | some name =>
        simp only [Option.map_some, Prod.map, Option.bind_some, readBrackets?_withReturns]
        cases readBrackets? name.2 <;> rfl

theorem read?_newline (s : List Char) : read? ('\n' :: s) = none := by
  have h : PrimitiveType.read? ('\n' :: s) = none := by
    simp [PrimitiveType.read?, PrimitiveType.all, PrimitiveType.typeName, after?]
  rw [read?, h]
  rfl

end Field

/-! ## The struct -/

section
variable {structName : String}

theorem newline_not_mem_structHead (hn : '\n' ∉ structName.toList) :
    '\n' ∉ structHead structName := by
  have hfree : '\n' ∉ "struct ".toList := by decide
  unfold structHead
  rw [List.mem_append, not_or]
  exact ⟨hfree, hn⟩

theorem getLast?_structHead_ne (hr : structName.toList.getLast? ≠ some '\r') :
    (structHead structName).getLast? ≠ some '\r' := by
  unfold structHead
  rw [List.getLast?_append]
  cases h : structName.toList.getLast? with
  | none =>
    have hblank : "struct ".toList.getLast? ≠ some '\r' := by decide
    exact hblank
  | some c =>
    rw [h] at hr
    exact hr

theorem readStruct?_withReturns (hn : '\n' ∉ structName.toList)
    (hr : structName.toList.getLast? ≠ some '\r') (s : List Char) :
    readStruct? structName (withReturns s) =
      (readStruct? structName s).map (Prod.map withReturns withReturns) := by
  have hhead := after?_withReturns (newline_not_mem_structHead hn) (getLast?_structHead_ne hr)
  have hbody : ∀ s, run? (· != '\x7d') (withReturns s) =
      (run? (· != '\x7d') s).map (Prod.map withReturns withReturns) :=
    run?_withReturns (by decide)
  unfold structHead at hhead
  simp (disch := decide) only [readStruct?, hhead, skipBlanks_withReturns, after?_withReturns,
    hbody, Option.bind_eq_bind, Option.bind_map, Option.map_bind, Function.comp_def,
    Option.pure_def, Option.map_some, Prod.map]

theorem readStruct?_newline (structName : String) (s : List Char) :
    readStruct? structName ('\n' :: s) = none := by
  simp [readStruct?, after?, List.isPrefixOf]

/-- A struct whose name does not end in a carriage return has the same fields with either line
ending. -/
theorem layout_crlf (hn : '\n' ∉ structName.toList)
    (hr : structName.toList.getLast? ≠ some '\r') (header : String) :
    layout structName (crlf header) = layout structName header := by
  have hbody : structBody? structName (withReturns header.toList) =
      (structBody? structName header.toList).map withReturns :=
    firstMatch?_withReturns (readStruct?_withReturns hn hr) (readStruct?_newline structName) _
  rw [layout, layout, toList_crlf, hbody]
  cases structBody? structName header.toList with
  | none => rfl
  | some body =>
    exact congrArg OrderedMap.ofList
      (allMatches_withReturns Field.read?_withReturns Field.read?_newline body)

/-! ## A name that ends in a carriage return -/

/-- A header with the struct, but with a line feed for the last character of its name. -/
def splitHeader (structName : String) : List Char :=
  (structHead structName).dropLast ++ '\n' :: "\x7bint x\x7d".toList

theorem dropLast_structHead_append (hr : structName.toList.getLast? = some '\r') :
    (structHead structName).dropLast ++ ['\r'] = structHead structName := by
  apply List.dropLast_append_getLast?
  unfold structHead
  rw [List.getLast?_append, hr]
  rfl

/-- With the line feed there is no struct of the name. -/
theorem structBody?_splitHeader (hn : '\n' ∉ structName.toList)
    (hr : structName.toList.getLast? = some '\r') :
    structBody? structName (splitHeader structName) = none := by
  have hlength : 8 ≤ (structHead structName).length := by
    have hpos : structName.toList ≠ [] := by
      intro he
      simp [he] at hr
    have hname := List.length_pos_iff.2 hpos
    have hstruct : "struct ".toList.length = 7 := by decide
    unfold structHead
    rw [List.length_append, hstruct]
    omega
  have habsent : ¬ structHead structName <:+: splitHeader structName := by
    unfold splitHeader
    rw [infix_append_cons_iff (newline_not_mem_structHead hn)]
    rintro (h | h)
    · have hle := h.length_le
      rw [List.length_dropLast] at hle
      omega
    · have hle := h.length_le
      have hbody : "\x7bint x\x7d".toList.length = 7 := by decide
      omega
  apply firstMatch?_of_none
  intro t ht
  have hafter : after? (structHead structName) t = none := by
    rw [Option.eq_none_iff_forall_ne_some]
    intro rest hrest
    rw [after?_eq_some_iff] at hrest
    exact habsent ((List.prefix_append _ rest).isInfix.trans (hrest ▸ ht.isInfix))
  unfold structHead at hafter
  rw [readStruct?, hafter]
  rfl

/-- With the carriage return there is one. -/
theorem structBody?_withReturns_splitHeader (hn : '\n' ∉ structName.toList)
    (hr : structName.toList.getLast? = some '\r') :
    structBody? structName (withReturns (splitHeader structName)) = some "int x".toList := by
  have hfree : '\n' ∉ (structHead structName).dropLast := fun h =>
    newline_not_mem_structHead hn (List.mem_of_mem_dropLast h)
  have hbody : withReturns "\x7bint x\x7d".toList = "\x7bint x\x7d".toList :=
    withReturns_of_not_mem (by decide)
  have hheader : withReturns (splitHeader structName) =
      structHead structName ++ "\n\x7bint x\x7d".toList := by
    unfold splitHeader
    rw [withReturns_append_of_not_mem hfree, withReturns_newline, hbody,
      ← List.singleton_append, ← List.append_assoc, dropLast_structHead_append hr]
    rfl
  have hread : readStruct? structName (structHead structName ++ "\n\x7bint x\x7d".toList) =
      some ("int x".toList, []) := by
    have hafter := after?_eq_some_iff.2
      (rfl : structHead structName ++ "\n\x7bint x\x7d".toList = _)
    unfold structHead at hafter ⊢
    rw [readStruct?, hafter]
    decide
  rw [hheader]
  exact firstMatch?_of_read (by simp) hread

/-- The line ending matters to no header exactly for the names that do not end in a carriage
return. -/
theorem layout_crlf_iff (hn : '\n' ∉ structName.toList) :
    (∀ header, layout structName (crlf header) = layout structName header) ↔
      structName.toList.getLast? ≠ some '\r' := by
  constructor
  · intro h hr
    have hheader := h (String.ofList (splitHeader structName))
    have hfield : allMatches Field.recogniser "int x".toList = [("x", ⟨.int, none⟩)] := by
      decide +kernel
    rw [layout, layout, toList_crlf, String.toList_ofList,
      structBody?_withReturns_splitHeader hn hr, structBody?_splitHeader hn hr] at hheader
    dsimp only at hheader
    rw [hfield] at hheader
    exact absurd (congrArg OrderedMap.entries hheader) (by decide)
  · exact layout_crlf hn

end

end CliParity
