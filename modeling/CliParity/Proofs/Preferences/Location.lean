import CliParity.Proofs.Preferences.Struct
import CliParity.Proofs.Text.Leftmost

/-!
# The fields come from one place of a header

The reader of a struct takes its name as it is, whatever characters the name has, and reads the
texts of the shape `StructText` (`reads_structText`). So the struct of a header is the leftmost
complete one. No text that starts in front of it could be completed by what comes behind its closing
brace: it would have been closed by then (`leftmostAt_structText_append`). `layout_located` says
what follows for the fields: they are read off the body of the leftmost struct, and nothing else of
the header or of the name matters.
-/

set_option autoImplicit false

namespace CliParity

open Text

/-- A way to write a struct of this name with this body. -/
def StructText (structName : String) (body w : List Char) : Prop :=
  ∃ blanks : Blanks, body ≠ [] ∧ '\x7d' ∉ body ∧
    w = structHead structName ++ (blanks.val ++ '\x7b' :: (body ++ ['\x7d']))

variable {structName : String} {s before w after body : List Char}

theorem reads_structText (structName : String) :
    Reads (readStruct? structName) (StructText structName) where
  read_iff := by
    intro s body rest
    rw [readStruct?_eq_some_iff]
    constructor
    · rintro ⟨blanks, hne, hbrace, rfl⟩
      exact ⟨_, ⟨blanks, hne, hbrace, rfl⟩, by simp⟩
    · rintro ⟨_, ⟨blanks, hne, hbrace, rfl⟩, rfl⟩
      exact ⟨blanks, hne, hbrace, by simp⟩
  ne_nil := by
    rintro body _ ⟨blanks, -, -, rfl⟩
    exact List.append_ne_nil_of_left_ne_nil (structHead_ne_nil structName) _

/-- Behind its head a struct has one closing brace, at the end. -/
theorem StructText.exists_eq (h : StructText structName body w) :
    ∃ middle, '\x7d' ∉ middle ∧ w = structHead structName ++ (middle ++ ['\x7d']) := by
  obtain ⟨blanks, -, hbrace, rfl⟩ := h
  refine ⟨blanks.val ++ '\x7b' :: body, ?_, by simp⟩
  have hblanks : '\x7d' ∉ blanks.val := fun h => absurd (blanks.isBlank_of_mem h) (by decide)
  simp [hblanks, hbrace]

/-- A struct does not go on behind one that starts later, which has its closing brace. -/
theorem StructText.not_prefix {k body' w' : List Char} (h : StructText structName body w)
    (h' : StructText structName body' w') : k ++ w <+: w' → k ++ w = w' := by
  obtain ⟨middle, -, rfl⟩ := h.exists_eq
  obtain ⟨middle', hm, rfl⟩ := h'.exists_eq
  rw [← List.append_assoc (structHead structName) middle', List.prefix_concat_iff]
  rintro (he | ⟨z, hz⟩)
  · exact he
  -- else the brace would be in the middle of the other, behind its head
  obtain ⟨x, hx⟩ : structHead structName <+: k ++ structHead structName := by
    refine List.prefix_of_prefix_length_le ⟨middle', hz.symm⟩ ⟨middle ++ ['\x7d'] ++ z, ?_⟩ (by simp)
    simp
  have hmiddle : x ++ (middle ++ '\x7d' :: z) = middle' := by
    apply List.append_cancel_left
    rw [← hz, ← List.append_assoc, hx]
    simp
  exact absurd (hmiddle ▸ by simp) hm

/-- What is behind the leftmost struct does not matter. -/
theorem leftmostAt_structText_append (h : LeftmostAt (StructText structName) s before w after body)
    (after' : List Char) :
    LeftmostAt (StructText structName) (before ++ w ++ after') before w after' body := by
  refine ⟨rfl, h.written, fun b body' w' rest hw' hs => Nat.le_of_not_lt fun hlt => ?_⟩
  rw [List.append_assoc, List.append_assoc] at hs
  obtain ⟨k, -, rfl, hk⟩ := exists_append_of_length_lt hs.symm hlt
  -- a struct that starts earlier ends with the leftmost one at the latest, so it was there before
  have hends : w' <+: k ++ w := by
    have hw : k ++ w <+: k ++ (w ++ after') := ⟨after', by simp⟩
    rcases List.prefix_or_prefix_of_prefix ⟨rest, hk⟩ hw with hle | hge
    · exact hle
    · rw [h.written.not_prefix hw' hge]
  obtain ⟨rest', hrest⟩ := hends
  have hle := h.first b body' w' (rest' ++ after) hw' (by
    rw [h.text, List.append_assoc b k w, ← hrest]
    simp)
  rw [List.length_append] at hlt hle
  omega

/-! ## The fields -/

theorem layout_of_leftmostAt {header : String}
    (h : LeftmostAt (StructText structName) header.toList before w after body) :
    layout structName header = .ofList (allMatches Field.recogniser body) := by
  have hbody : structBody? structName header.toList = some body :=
    (reads_structText structName).firstMatch?_of_leftmost ⟨before, w, after, h⟩
  rw [layout, hbody]

/-- **The fields come from the leftmost complete struct.** They are those that are read off its
body, whatever is behind its closing brace. Without a complete struct of the name there are none; if
there is one, one is leftmost. -/
theorem layout_located (structName header : String) :
    (∀ before w after body,
      LeftmostAt (StructText structName) header.toList before w after body →
        layout structName header = .ofList (allMatches Field.recogniser body) ∧
        ∀ after' : List Char, layout structName (.ofList (before ++ w ++ after')) =
          layout structName header) ∧
    (¬ Occurs (StructText structName) header.toList → layout structName header = .empty) ∧
    (Occurs (StructText structName) header.toList ↔
      ∃ body, Leftmost (StructText structName) header.toList body) := by
  have hreads := reads_structText structName
  refine ⟨fun before w after body h => ⟨layout_of_leftmostAt h, fun after' => ?_⟩, fun h => ?_,
    hreads.exists_leftmost, fun ⟨body, h⟩ => h.occurs⟩
  · have h' : LeftmostAt (StructText structName) (String.ofList (before ++ w ++ after')).toList
        before w after' body := by
      rw [String.toList_ofList]
      exact leftmostAt_structText_append h after'
    rw [layout_of_leftmostAt h', layout_of_leftmostAt h]
  · have hbody : structBody? structName header.toList = none := hreads.firstMatch?_eq_none_iff.2 h
    rw [layout, hbody]

/-- A header for a name with braces and a blank: a struct without anything in its braces, one without
braces, and one whose body begins with an opening brace. -/
def bracedHeader : String :=
  "struct a\x7b \x7d\x7b\x7d; struct a\x7b \x7d; struct a\x7b \x7d \x7b\x7bint x\x7d;"

theorem layout_bracedHeader :
    (∃ before w after, LeftmostAt (StructText "a\x7b \x7d") bracedHeader.toList before w after
        "\x7bint x".toList ∧ ∀ after' : List Char,
      layout "a\x7b \x7d" (.ofList (before ++ w ++ after')) = layout "a\x7b \x7d" bracedHeader) ∧
    layout "a\x7b \x7d" bracedHeader = ⟨[("x", ⟨.int, none⟩)], by decide⟩ ∧
    ¬ Occurs (StructText "int") bracedHeader.toList ∧ layout "int" bracedHeader = .empty := by
  have hreads := reads_structText
  have hbody : structBody? "a\x7b \x7d" bracedHeader.toList = some "\x7bint x".toList := by
    decide +kernel
  have habsent : ¬ Occurs (StructText "int") bracedHeader.toList :=
    (hreads "int").firstMatch?_eq_none_iff.1
      (show structBody? "int" bracedHeader.toList = none by decide +kernel)
  have hfields : allMatches Field.recogniser "\x7bint x".toList = [("x", ⟨.int, none⟩)] := by
    decide +kernel
  obtain ⟨before, w, after, h⟩ := (hreads "a\x7b \x7d").leftmost_of_firstMatch? hbody
  obtain ⟨hlayout, hbehind⟩ := (layout_located "a\x7b \x7d" bracedHeader).1 before w after _ h
  refine ⟨⟨before, w, after, h, hbehind⟩, ?_, habsent,
    (layout_located "int" bracedHeader).2.1 habsent⟩
  rw [hlayout, hfields]
  rfl

end CliParity
