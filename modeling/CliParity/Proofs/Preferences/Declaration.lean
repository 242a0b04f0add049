import CliParity.Preferences.Layout
import CliParity.Proofs.Text.Occurrence
import CliParity.Proofs.Text.Word

/-!
# Declarations line by line

A `Declaration` names its type, the field, and for an array the length, each with one word. The scan
of a body looks for the name of a primitive type with white space behind, which may be the end of
another word. So it reads off a line the field of the primitive type that the name of the type ends
in, if there is one, and goes on behind the line (`Declaration.allMatches_line`). That is the field
that the line declares exactly if the name does not end so without being that of the primitive
type (`Declaration.seen?_eq_field?_iff`).
-/

set_option autoImplicit false

namespace CliParity

open Text

/-! ## The names of the primitive types -/

namespace PrimitiveType

variable {type type' : PrimitiveType} {name : String} {s rest : List Char}

theorem isWord_typeName (type : PrimitiveType) : IsWord type.typeName.toList := by
  cases type <;> exact ⟨by decide, by decide⟩

theorem mem_all (type : PrimitiveType) : type ∈ all := by cases type <;> decide

/-- No name of a primitive type is the end of another. -/
theorem eq_of_suffix_typeName (h : type.typeName.toList <:+ type'.typeName.toList) :
    type = type' := by
  revert h
  cases type <;> cases type' <;> decide

/-- No name of a primitive type is the beginning of another. -/
theorem eq_of_prefix_typeName (h : type.typeName.toList <+: type'.typeName.toList) :
    type = type' := by
  revert h
  cases type <;> cases type' <;> decide

theorem ofTypeName?_eq_some_iff : ofTypeName? name = some type ↔ type.typeName = name := by
  constructor
  · intro h
    simpa using List.find?_some h
  · rintro rfl
    cases type <;> rfl

/-- The type whose name is the end of a name. -/
def ending? (name : String) : Option PrimitiveType :=
  all.find? fun type => type.typeName.toList.isSuffixOf name.toList

theorem ending?_eq_some_iff :
    ending? name = some type ↔ type.typeName.toList <:+ name.toList := by
  constructor
  · intro h
    simpa using List.find?_some h
  · intro h
    cases hfound : ending? name with
    | none =>
      have hnone := List.find?_eq_none.1 hfound type (mem_all type)
      exact absurd (List.isSuffixOf_iff_suffix.2 h) hnone
    | some type' =>
      have h' : type'.typeName.toList <:+ name.toList := by simpa using List.find?_some hfound
      rcases List.suffix_or_suffix_of_suffix h h' with hs | hs
      · rw [eq_of_suffix_typeName hs]
      · rw [eq_of_suffix_typeName hs]

theorem ending?_eq_none_iff :
    ending? name = none ↔ ∀ type : PrimitiveType, ¬ type.typeName.toList <:+ name.toList := by
  simp only [Option.eq_none_iff_forall_ne_some, ne_eq, ending?_eq_some_iff]

theorem read?_eq_some_iff : read? s = some (type, rest) ↔ s = type.typeName.toList ++ rest := by
  have h : ∀ {type' : PrimitiveType} {m : PrimitiveType × List Char},
      (after? type'.typeName.toList s).map (type', ·) = some m ↔
        m.1 = type' ∧ s = type'.typeName.toList ++ m.2 := by
    intro type' m
    simp only [Option.map_eq_some_iff, after?_eq_some_iff]
    constructor
    · rintro ⟨rest, hs, rfl⟩
      exact ⟨rfl, hs⟩
    · rintro ⟨rfl, hs⟩
      exact ⟨_, hs, rfl⟩
  constructor
  · intro hr
    obtain ⟨type', -, ht⟩ := List.exists_of_findSome?_eq_some hr
    obtain ⟨rfl, hs⟩ := h.1 ht
    exact hs
  · intro hs
    cases hr : read? s with
    | none =>
      have hnone := List.findSome?_eq_none_iff.1 hr type (mem_all type)
      rw [(h (m := (type, rest))).2 ⟨rfl, hs⟩] at hnone
      cases hnone
    | some m =>
      obtain ⟨type', -, ht⟩ := List.exists_of_findSome?_eq_some hr
      obtain ⟨hm, hs'⟩ := h.1 ht
      have heq : type = type' := by
        rcases List.prefix_or_prefix_of_prefix ⟨rest, hs.symm⟩ ⟨m.2, hs'.symm⟩ with hp | hp
        · exact eq_of_prefix_typeName hp
        · exact (eq_of_prefix_typeName hp).symm
      subst heq
      rw [List.append_cancel_left (hs.symm.trans hs'), ← hm]

end PrimitiveType

/-! ## What a match starts with -/

namespace Field

variable {w name s rest : List Char} {c : Char}

/-- A match starts with the name of a primitive type, white space and the name of the field. -/
theorem exists_of_read? {m : (String × Field) × List Char} (h : read? s = some m) :
    ∃ (type : PrimitiveType) (blanks : Blanks), blanks.val ≠ [] ∧ IsWord m.1.1.toList ∧
      type.typeName.toList ++ blanks.val ++ m.1.1.toList <+: s := by
  simp only [read?, Option.bind_eq_bind, Option.bind_eq_some_iff, Prod.exists,
    PrimitiveType.read?_eq_some_iff, run?_eq_some_iff] at h
  obtain ⟨type, s₁, rfl, blanks, s₂, ⟨hne, hblanks, -, rfl⟩, name, s₃, ⟨hname, hall, -, rfl⟩, h⟩ := h
  have hm : m.1.1.toList = name := by
    split at h <;> cases h <;> exact String.toList_ofList
  rw [hm]
  exact ⟨type, ⟨blanks, hblanks⟩, hne, ⟨hname, hall⟩, s₃, by simp⟩

/-- In front of a text that begins with a word, the word is that name. -/
theorem eq_typeName_of_read? (hw : w.all isWord) (hc : isWord c = false)
    {m : (String × Field) × List Char} (h : read? (w ++ c :: s) = some m) :
    isBlank c = true ∧ ∃ type : PrimitiveType, type.typeName.toList = w := by
  obtain ⟨type, ⟨blanks, hblanks⟩, hne, -, rest, hs⟩ := exists_of_read? h
  obtain ⟨d, blanks, rfl⟩ := List.exists_cons_of_ne_nil hne
  have hd : isBlank d = true := List.all_eq_true.1 hblanks d List.mem_cons_self
  simp only [List.append_assoc, List.cons_append] at hs
  obtain ⟨rfl, rfl, -⟩ := append_cons_inj_of_all hw
    (PrimitiveType.isWord_typeName type).all_isWord hc (isWord_of_isBlank hd) hs.symm
  exact ⟨hd, type, rfl⟩

/-- The scan passes over a word, unless white space is behind it and it ends in the name of a
primitive type. -/
theorem allMatches_word (hw : w.all isWord) (hc : isWord c = false)
    (h : isBlank c = true → ∀ type : PrimitiveType, ¬ type.typeName.toList <:+ w) :
    allMatches recogniser (w ++ c :: s) = allMatches recogniser (c :: s) := by
  refine allMatches_append_of_none fun t ht _ => ?_
  refine Option.eq_none_iff_forall_not_mem.2 fun m hm => ?_
  obtain ⟨u, rfl⟩ := ht
  rw [List.all_append, Bool.and_eq_true] at hw
  obtain ⟨hblank, type, rfl⟩ := eq_typeName_of_read? hw.2 hc hm
  exact h hblank type (List.suffix_append u _)

/-- The scan passes over a character that is of no word. -/
theorem allMatches_cons (hc : isWord c = false) :
    allMatches recogniser (c :: s) = allMatches recogniser s := by
  refine allMatches_of_none (Option.eq_none_iff_forall_not_mem.2 fun m hm => ?_)
  obtain ⟨-, type, htype⟩ := eq_typeName_of_read? (w := []) rfl hc hm
  exact (PrimitiveType.isWord_typeName type).ne_nil htype

theorem allMatches_blanks {blanks : List Char} (h : blanks.all isBlank) (s : List Char) :
    allMatches recogniser (blanks ++ s) = allMatches recogniser s := by
  induction blanks with
  | nil => rfl
  | cons c blanks ih =>
    rw [List.all_cons, Bool.and_eq_true] at h
    rw [List.cons_append, allMatches_cons (isWord_of_isBlank h.1), ih h.2]

/-! ## What a match reads -/

theorem readBrackets?_eq_some_iff {digits : List Char} : readBrackets? s = some (digits, rest) ↔
    digits ≠ [] ∧ digits.all isDigit ∧ s = '[' :: (digits ++ ']' :: rest) := by
  simp only [readBrackets?, Option.bind_eq_bind, Option.bind_eq_some_iff, Option.pure_def,
    Option.some.injEq, Prod.mk.injEq, Prod.exists, after?_eq_some_iff, run?_eq_some_iff]
  constructor
  · rintro ⟨s₁, rfl, digits, s₂, ⟨hne, hall, -, rfl⟩, s₃, rfl, rfl, rfl⟩
    exact ⟨hne, hall, rfl⟩
  · rintro ⟨hne, hall, rfl⟩
    have hbracket : ∀ c ∈ (']' :: rest).head?, isDigit c = false := by
      rintro c ⟨⟩
      decide +kernel
    exact ⟨_, rfl, digits, _, ⟨hne, hall, hbracket, rfl⟩, rest, rfl, rfl, rfl⟩

theorem read?_typeName (type : PrimitiveType) {blanks : List Char} (hne : blanks ≠ [])
    (hblanks : blanks.all isBlank) (hname : IsWord name)
    (hrest : ∀ c ∈ rest.head?, isWord c = false) :
    read? (type.typeName.toList ++ (blanks ++ (name ++ rest))) =
      match readBrackets? rest with
      | some (digits, s) => some ((String.ofList name, ⟨type, wordValue? digits⟩), s)
      | none => some ((String.ofList name, ⟨type, none⟩), rest) := by
  obtain ⟨c, word, rfl⟩ := List.exists_cons_of_ne_nil hname.ne_nil
  have hc : isBlank c = false :=
    isBlank_of_isWord (List.all_eq_true.1 hname.all_isWord c List.mem_cons_self)
  have hblank : run? isBlank (blanks ++ (c :: word ++ rest)) = some (blanks, c :: word ++ rest) :=
    run?_eq_some_iff.2 ⟨hne, hblanks, by simpa using hc, rfl⟩
  have hword : run? isWord (c :: word ++ rest) = some (c :: word, rest) :=
    run?_eq_some_iff.2 ⟨hname.ne_nil, hname.all_isWord, hrest, rfl⟩
  rw [read?, PrimitiveType.read?_eq_some_iff.2 rfl]
  simp only [Option.bind_eq_bind, Option.bind_some, hblank, hword]
  cases readBrackets? rest <;> rfl

end Field

/-! ## Declarations -/

theorem Text.wordValue?_eq_none {digits : List Char} (h : ¬ digits.all isDigit) :
    wordValue? digits = none := by
  rw [wordValue?, if_neg]
  intro hdigits
  simp only [Bool.and_eq_true] at hdigits
  refine h (List.all_eq_true.2 fun c hc => ?_)
  rw [isDigit, List.all_eq_true.1 hdigits.1.2 c hc, Bool.true_or]

/-- The declaration of a field on a line of its own, each part one word. -/
structure Declaration where
  indent : Blanks
  typeName : String
  name : String
  /-- The length of an array, a number or a name for one; absent for a single value. -/
  arrayLength : Option String
  isWord_typeName : IsWord typeName.toList
  isWord_name : IsWord name.toList
  isWord_arrayLength : ∀ n ∈ arrayLength, IsWord n.toList

namespace Declaration

/-- The length in brackets, if there is one. -/
def brackets (d : Declaration) : List Char :=
  match d.arrayLength with
  | some n => '[' :: (n.toList ++ [']'])
  | none => []

/-- The line: the type, the name with the length, and a semicolon. -/
def line (d : Declaration) : List Char :=
  d.indent.val ++ (d.typeName.toList ++ ' ' :: (d.name.toList ++ (d.brackets ++ [';', '\n'])))

/-- The length, if it is a number of a machine word. -/
def storedLength (d : Declaration) : Option Nat := d.arrayLength.bind (wordValue? ·.toList)

/-- The field that is declared, if its type is primitive. -/
def field? (d : Declaration) : Option (String × Field) :=
  (PrimitiveType.ofTypeName? d.typeName).map fun type => (d.name, ⟨type, d.storedLength⟩)

/-- The field that is read: its type is the primitive one that the name of the type ends in. -/
def seen? (d : Declaration) : Option (String × Field) :=
  (PrimitiveType.ending? d.typeName).map fun type => (d.name, ⟨type, d.storedLength⟩)

/-- The name of the type does not end in that of a primitive one, unless it is that name. -/
def Whole (d : Declaration) : Prop :=
  ∀ type : PrimitiveType, type.typeName.toList <:+ d.typeName.toList → type.typeName = d.typeName

variable {d : Declaration} {ds : List Declaration}

/-! ## The scan of a line -/

theorem exists_brackets (d : Declaration) (s : List Char) :
    ∃ c t, d.brackets ++ ';' :: s = c :: t ∧ isWord c = false ∧ isBlank c = false := by
  rw [brackets]
  cases d.arrayLength with
  | none => exact ⟨';', s, rfl, by decide, by decide⟩
  | some n => exact ⟨'[', n.toList ++ [']'] ++ ';' :: s, rfl, by decide, by decide⟩

/-- The length is read if it is a number. -/
theorem readBrackets?_brackets (d : Declaration) (s : List Char) :
    Field.readBrackets? (d.brackets ++ ';' :: s) =
      (d.arrayLength.filter (·.toList.all isDigit)).map fun n => (n.toList, ';' :: s) := by
  rw [brackets]
  cases hn : d.arrayLength with
  | none => rfl
  | some n =>
    have hword := d.isWord_arrayLength n hn
    by_cases hdigits : n.toList.all isDigit
    · rw [Option.filter_some, if_pos hdigits]
      exact Field.readBrackets?_eq_some_iff.2 ⟨hword.ne_nil, hdigits, by simp⟩
    · rw [Option.filter_some, if_neg hdigits]
      refine Option.eq_none_iff_forall_not_mem.2 fun (digits, rest) hread => hdigits ?_
      obtain ⟨-, hall, he⟩ := Field.readBrackets?_eq_some_iff.1 hread
      rw [List.cons_append, List.append_assoc, List.singleton_append] at he
      have hclose : ']' ∉ n.toList := hword.not_mem (by decide)
      have hclose' : ']' ∉ digits := fun h =>
        absurd (List.all_eq_true.1 hall _ h) (by decide +kernel)
      rwa [(append_cons_inj hclose hclose' (List.cons.inj he).2).1]

theorem allMatches_end (rest : List Char) :
    allMatches Field.recogniser (';' :: '\n' :: rest) = allMatches Field.recogniser rest := by
  rw [Field.allMatches_cons (by decide), Field.allMatches_cons (by decide)]

theorem allMatches_brackets (d : Declaration) (rest : List Char) :
    allMatches Field.recogniser (d.brackets ++ ';' :: '\n' :: rest) =
      allMatches Field.recogniser rest := by
  rw [brackets]
  cases hn : d.arrayLength with
  | none => exact allMatches_end rest
  | some n =>
    have hword := (d.isWord_arrayLength n hn).all_isWord
    have hclose : isWord ']' = false := by decide
    rw [List.cons_append, Field.allMatches_cons (by decide), List.append_assoc,
      List.singleton_append, Field.allMatches_word hword hclose fun h => absurd h (by decide),
      Field.allMatches_cons hclose, allMatches_end]

/-- No field is read behind the type. -/
theorem allMatches_name (d : Declaration) (rest : List Char) :
    allMatches Field.recogniser (d.name.toList ++ (d.brackets ++ ';' :: '\n' :: rest)) =
      allMatches Field.recogniser rest := by
  obtain ⟨c, t, he, hword, hblank⟩ := d.exists_brackets ('\n' :: rest)
  rw [← d.allMatches_brackets rest, he]
  exact Field.allMatches_word d.isWord_name.all_isWord hword fun h =>
    absurd h (Bool.eq_false_iff.1 hblank)

theorem storedLength_eq (d : Declaration) : d.storedLength =
    (d.arrayLength.filter (·.toList.all isDigit)).bind (wordValue? ·.toList) := by
  rw [storedLength]
  cases d.arrayLength with
  | none => rfl
  | some n =>
    by_cases hdigits : n.toList.all isDigit
    · rw [Option.filter_some, if_pos hdigits]
    · rw [Option.filter_some, if_neg hdigits]
      exact wordValue?_eq_none hdigits

/-- In front of the name of a primitive type the scan reads the field. -/
theorem allMatches_typeName (d : Declaration) (type : PrimitiveType) (rest : List Char) :
    allMatches Field.recogniser (type.typeName.toList ++
      ' ' :: (d.name.toList ++ (d.brackets ++ ';' :: '\n' :: rest))) =
      (d.name, ⟨type, d.storedLength⟩) :: allMatches Field.recogniser rest := by
  have hhead : ∀ c ∈ (d.brackets ++ ';' :: '\n' :: rest).head?, isWord c = false := by
    obtain ⟨c, t, he, hword, -⟩ := d.exists_brackets ('\n' :: rest)
    rw [he]
    rintro _ ⟨⟩
    exact hword
  obtain ⟨s, hread, hs⟩ : ∃ s, Field.read? (type.typeName.toList ++
      ' ' :: (d.name.toList ++ (d.brackets ++ ';' :: '\n' :: rest))) =
        some ((d.name, ⟨type, d.storedLength⟩), s) ∧
      allMatches Field.recogniser s = allMatches Field.recogniser rest := by
    rw [← List.singleton_append, Field.read?_typeName type (List.cons_ne_nil _ _) (by decide)
      d.isWord_name hhead, readBrackets?_brackets, storedLength_eq, String.ofList_toList]
    cases d.arrayLength.filter (·.toList.all isDigit) with
    | none => exact ⟨_, rfl, d.allMatches_brackets rest⟩
    | some n => exact ⟨_, rfl, allMatches_end rest⟩
  obtain ⟨c, w, hw⟩ := List.exists_cons_of_ne_nil (PrimitiveType.isWord_typeName type).ne_nil
  rw [hw, List.cons_append] at hread ⊢
  rw [allMatches_of_read hread, hs]

/-- A line adds its field to what is read behind it. -/
theorem allMatches_line (d : Declaration) (rest : List Char) :
    allMatches Field.recogniser (d.line ++ rest) =
      d.seen?.toList ++ allMatches Field.recogniser rest := by
  have hline : d.line ++ rest = d.indent.val ++ (d.typeName.toList ++
      ' ' :: (d.name.toList ++ (d.brackets ++ ';' :: '\n' :: rest))) := by
    simp [line]
  rw [hline, Field.allMatches_blanks d.indent.property, seen?]
  cases hending : PrimitiveType.ending? d.typeName with
  | none =>
    have hnone := PrimitiveType.ending?_eq_none_iff.1 hending
    rw [Field.allMatches_word d.isWord_typeName.all_isWord (by decide) fun _ => hnone,
      Field.allMatches_cons (by decide), allMatches_name]
    rfl
  | some type =>
    obtain ⟨before, hbefore⟩ := PrimitiveType.ending?_eq_some_iff.1 hending
    rw [← hbefore, List.append_assoc, allMatches_append_of_none, allMatches_typeName]
    · rfl
    -- a match that starts earlier would be of a type whose name ends in that of this one
    intro t ht hne
    refine Option.eq_none_iff_forall_not_mem.2 fun m hm => ?_
    obtain ⟨u, rfl⟩ := ht
    have hword := d.isWord_typeName.all_isWord
    rw [← hbefore, List.append_assoc, List.all_append, Bool.and_eq_true] at hword
    rw [Option.mem_def, ← List.append_assoc] at hm
    obtain ⟨-, type', htype⟩ := Field.eq_typeName_of_read? hword.2 (by decide) hm
    obtain rfl := PrimitiveType.eq_of_suffix_typeName ⟨t, htype.symm⟩
    exact hne (List.append_left_eq_self.1 htype.symm)

theorem allMatches_lines (ds : List Declaration) :
    allMatches Field.recogniser (ds.flatMap line) = ds.filterMap seen? := by
  induction ds with
  | nil => simp [allMatches]
  | cons d ds ih =>
    rw [List.flatMap_cons, allMatches_line, ih, List.filterMap_cons]
    cases d.seen? <;> rfl

theorem brace_not_mem_line (d : Declaration) : '\x7d' ∉ d.line := by
  have hblank : '\x7d' ∉ d.indent.val := fun h => absurd (d.indent.isBlank_of_mem h) (by decide)
  have hword : ∀ {w : List Char}, IsWord w → '\x7d' ∉ w := fun hw => hw.not_mem (by decide)
  have hbrackets : '\x7d' ∉ d.brackets := by
    rw [brackets]
    cases hn : d.arrayLength with
    | none => exact List.not_mem_nil
    | some n => simp [hword (d.isWord_arrayLength n hn)]
  simp [line, hblank, hword d.isWord_typeName, hword d.isWord_name, hbrackets]

/-! ## What is declared and what is read -/

theorem fst_of_seen? {e : String × Field} (h : d.seen? = some e) : e.1 = d.name := by
  obtain ⟨type, -, rfl⟩ := Option.map_eq_some_iff.1 h
  rfl

theorem names_seen?_sublist (ds : List Declaration) :
    ((ds.filterMap seen?).map (·.1)).Sublist (ds.map (·.name)) := by
  induction ds with
  | nil => exact .slnil
  | cons d ds ih =>
    rw [List.filterMap_cons, List.map_cons]
    cases hseen : d.seen? with
    | none => exact ih.cons d.name
    | some e =>
      rw [List.map_cons, fst_of_seen? hseen]
      exact ih.cons_cons d.name

/-- The field that is declared is read. -/
theorem seen?_of_field? {e : String × Field} (h : d.field? = some e) : d.seen? = some e := by
  obtain ⟨type, htype, he⟩ := Option.map_eq_some_iff.1 h
  have hsuffix : type.typeName.toList <:+ d.typeName.toList := by
    rw [PrimitiveType.ofTypeName?_eq_some_iff.1 htype]
  rw [seen?, PrimitiveType.ending?_eq_some_iff.2 hsuffix, Option.map_some, he]

theorem field?_eq_none_of_seen? (h : d.seen? = none) : d.field? = none := by
  refine Option.eq_none_iff_forall_ne_some.2 fun e he => ?_
  rw [seen?_of_field? he] at h
  cases h

theorem seen?_eq_field?_iff : d.seen? = d.field? ↔ d.Whole := by
  constructor
  · intro h type hsuffix
    rw [seen?, PrimitiveType.ending?_eq_some_iff.2 hsuffix, Option.map_some] at h
    obtain ⟨type', htype, he⟩ := Option.map_eq_some_iff.1 h.symm
    obtain rfl : type' = type := by simpa using he
    exact PrimitiveType.ofTypeName?_eq_some_iff.1 htype
  · intro h
    cases hseen : d.seen? with
    | none => exact (field?_eq_none_of_seen? hseen).symm
    | some e =>
      obtain ⟨type, htype, rfl⟩ := Option.map_eq_some_iff.1 hseen
      have hname := h type (PrimitiveType.ending?_eq_some_iff.1 htype)
      rw [field?, PrimitiveType.ofTypeName?_eq_some_iff.2 hname, Option.map_some]

end Declaration

end CliParity
