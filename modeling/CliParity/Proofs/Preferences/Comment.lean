import CliParity.Proofs.OrderedMap
import CliParity.Proofs.Preferences.Declaration
import CliParity.Proofs.Preferences.Struct

/-!
# Comments in a struct

The scan of a struct's body reads comments like the rest. A comment is quiet (`Comment.QuietBefore`)
if in it no name of a primitive type stands in front of white space and a word, and if it does not
end in such a name in front of a member, whose type would be read for the name of a field.

A struct has the fields that it has without its comments if all of them are quiet, and where none of
these fields is mentioned in a comment only if so (`layout_commented`). Members and comments are
read apart, since no field is read across a semicolon (`Field.allMatches_semicolon`).
-/

set_option autoImplicit false

namespace CliParity

open Text

/-! ## Matches and semicolons -/

namespace Text

variable {p s b : List Char} {c : Char}

/-- A literal without `c` is read alike in front of it. -/
theorem after?_append_cons (hc : c ∉ p) :
    after? p (s ++ c :: b) = (after? p s).map (· ++ c :: b) := by
  cases h : after? p s with
  | some rest =>
    rw [after?_eq_some_iff] at h
    rw [h, List.append_assoc]
    exact after?_append p _
  | none =>
    rw [Option.map_none, Option.eq_none_iff_forall_ne_some]
    intro rest hrest
    rw [after?_eq_some_iff] at hrest
    obtain ⟨t, rfl⟩ := (prefix_append_cons_iff hc).1 ⟨rest, hrest.symm⟩
    rw [after?_append] at h
    cases h

end Text

theorem PrimitiveType.read?_semicolon (s b : List Char) :
    PrimitiveType.read? (s ++ ';' :: b) =
      (PrimitiveType.read? s).map (Prod.map id (· ++ ';' :: b)) := by
  have hname : ∀ type : PrimitiveType, ';' ∉ type.typeName.toList := by
    intro type
    cases type <;> decide
  have h : ∀ type : PrimitiveType, (after? type.typeName.toList (s ++ ';' :: b)).map (type, ·) =
      ((after? type.typeName.toList s).map (type, ·)).map (Prod.map id (· ++ ';' :: b)) := by
    intro type
    rw [after?_append_cons (hname type), Option.map_map, Option.map_map]
    rfl
  simp only [PrimitiveType.read?, h, List.map_findSome?, Function.comp_def]

namespace Field

variable {s t rest : List Char}

theorem readBrackets?_semicolon (s b : List Char) :
    readBrackets? (s ++ ';' :: b) = (readBrackets? s).map (Prod.map id (· ++ ';' :: b)) := by
  have hdigit : ∀ c ∈ (';' :: b).head?, isDigit c = false := by
    rintro c ⟨⟩
    decide +kernel
  simp (disch := decide) only [readBrackets?, after?_append_cons, run?_append_eq_map hdigit,
    Option.bind_eq_bind, Option.bind_map, Option.map_bind, Function.comp_def, Option.pure_def,
    Option.map_some, Prod.map, id]

/-- A declaration is read alike in front of a semicolon, whatever follows. -/
theorem read?_semicolon (s b : List Char) :
    read? (s ++ ';' :: b) = (read? s).map (Prod.map id (· ++ ';' :: b)) := by
  have hblank : ∀ s, run? isBlank (s ++ ';' :: b) =
      (run? isBlank s).map (Prod.map id (· ++ ';' :: b)) :=
    fun s => run?_append_eq_map (by rintro c ⟨⟩; decide)
  have hword : ∀ s, run? isWord (s ++ ';' :: b) =
      (run? isWord s).map (Prod.map id (· ++ ';' :: b)) :=
    fun s => run?_append_eq_map (by rintro c ⟨⟩; decide)
  rw [read?, read?, PrimitiveType.read?_semicolon]
  cases PrimitiveType.read? s with
  | none => rfl
  | some type =>
    simp only [Option.bind_eq_bind, Option.map_some, Prod.map, Option.bind_some, hblank]
    cases run? isBlank type.2 with
    | none => rfl
    | some blanks =>
      simp only [Option.map_some, Prod.map, Option.bind_some, hword]
      cases run? isWord blanks.2 with
      | none => rfl
      | some name =>
        simp only [Option.map_some, Prod.map, Option.bind_some, readBrackets?_semicolon]
        cases readBrackets? name.2 <;> rfl

/-- No field is read across a semicolon. -/
theorem allMatches_semicolon (s b : List Char) :
    allMatches recogniser (s ++ ';' :: b) = allMatches recogniser s ++ allMatches recogniser b := by
  rw [allMatches_append (fun s => read?_semicolon s b), allMatches_cons (by decide)]

/-! ## Declarations in a line -/

/-- In the text the name of a primitive type stands in front of white space and a word. -/
def DeclaredIn (t : List Char) : Prop :=
  ∃ (type : PrimitiveType) (blanks : Blanks) (name : List Char), blanks.val ≠ [] ∧ IsWord name ∧
    type.typeName.toList ++ blanks.val ++ name <:+: t

/-- The text ends in the name of a primitive type, with white space or none behind. -/
def OpenedBy (t : List Char) : Prop :=
  ∃ (type : PrimitiveType) (blanks : Blanks), type.typeName.toList ++ blanks.val <:+ t

/-- The text begins with the name of a primitive type, with white space or none in front. -/
def StartsWithType (s : List Char) : Prop :=
  ∃ (indent : Blanks) (type : PrimitiveType) (c : Char) (after : List Char), isWord c = false ∧
    s = indent.val ++ (type.typeName.toList ++ c :: after)

theorem DeclaredIn.mono (h : DeclaredIn s) (hs : s <:+: t) : DeclaredIn t :=
  let ⟨type, blanks, name, hne, hname, hi⟩ := h
  ⟨type, blanks, name, hne, hname, hi.trans hs⟩

theorem StartsWithType.append (h : StartsWithType s) (t : List Char) : StartsWithType (s ++ t) := by
  obtain ⟨indent, type, c, after, hc, rfl⟩ := h
  exact ⟨indent, type, c, after ++ t, hc, by simp⟩

theorem isSome_read?_of_prefix {type : PrimitiveType} {blanks : Blanks} {name : List Char}
    (hne : blanks.val ≠ []) (hname : IsWord name)
    (h : type.typeName.toList ++ blanks.val ++ name <+: s) : (read? s).isSome := by
  obtain ⟨after, rfl⟩ := h
  obtain ⟨c, word, rfl⟩ := List.exists_cons_of_ne_nil hname.ne_nil
  have hc := List.all_eq_true.1 hname.all_isWord c List.mem_cons_self
  have hword : run? isWord (c :: (word ++ after)) = some
      ((c :: (word ++ after)).takeWhile isWord, (c :: (word ++ after)).dropWhile isWord) := by
    simp [run?, hc]
  obtain ⟨hlonger, hall, hhead, hsplit⟩ := run?_eq_some_iff.1 hword
  rw [List.append_assoc, List.append_assoc, List.cons_append, hsplit,
    read?_typeName type hne blanks.property ⟨hlonger, hall⟩ hhead]
  cases readBrackets? _ <;> rfl

/-- Behind the name of a primitive type at the end of a line, the type of the next line is read for
a name. -/
theorem read?_of_startsWithType (type : PrimitiveType) (blanks : Blanks)
    (h : StartsWithType rest) : ∃ (type' : PrimitiveType) (field : Field) (after : List Char),
      read? (type.typeName.toList ++ blanks.val ++ '\n' :: rest) =
        some ((type'.typeName, field), after) := by
  obtain ⟨indent, type', c, after, hc, rfl⟩ := h
  have hblanks : (blanks.val ++ '\n' :: indent.val).all isBlank := by
    rw [List.all_append, List.all_cons, blanks.property, indent.property]
    rfl
  have hhead : ∀ d ∈ (c :: after).head?, isWord d = false := by
    rintro d ⟨⟩
    exact hc
  have htext : type.typeName.toList ++ blanks.val ++
      '\n' :: (indent.val ++ (type'.typeName.toList ++ c :: after)) = type.typeName.toList ++
        (blanks.val ++ '\n' :: indent.val ++ (type'.typeName.toList ++ c :: after)) := by
    simp
  rw [htext, read?_typeName type (by simp) hblanks (PrimitiveType.isWord_typeName type') hhead,
    String.ofList_toList]
  cases readBrackets? (c :: after) with
  | none => exact ⟨type', _, _, rfl⟩
  | some m => exact ⟨type', _, _, rfl⟩

/-- A match that starts in a line is of a field that is declared there, or takes the name from
behind the line. -/
theorem cases_of_read? {m : (String × Field) × List Char}
    (h : read? (t ++ '\n' :: rest) = some m) :
    (DeclaredIn t ∧ m.1.1.toList <:+: t) ∨ rest ≠ [] ∧
      ∃ (type : PrimitiveType) (blanks : Blanks), t = type.typeName.toList ++ blanks.val := by
  obtain ⟨type, blanks, hne, hname, after, hs⟩ := exists_of_read? h
  have hnewline : ∀ {w : List Char}, IsWord w → '\n' ∉ w := fun hw => hw.not_mem (by decide)
  rw [List.append_assoc] at hs
  rcases List.append_eq_append_iff.1 hs with ⟨k, rfl, hk⟩ | ⟨k, htype, hk⟩
  · -- the line goes on behind the white space, so the name is in it
    obtain ⟨l, rfl, -⟩ := eq_append_of_not_mem (hnewline hname) rfl hk
    exact .inl ⟨⟨type, blanks, _, hne, hname, [], l, by simp⟩, _, l, List.append_assoc ..⟩
  · cases k with
    | nil =>
      obtain ⟨l, hnil, -⟩ := eq_append_of_not_mem (t := []) (hnewline hname) rfl hk.symm
      exact absurd (List.append_eq_nil_iff.1 hnil.symm).1 hname.ne_nil
    | cons d k =>
      obtain ⟨rfl, rfl⟩ := List.cons.inj hk
      have hline := hnewline (PrimitiveType.isWord_typeName type)
      obtain ⟨l, rfl, hl⟩ := eq_append_of_not_mem hline rfl htype
      have hblank : l.all isBlank := by
        have hall := blanks.property
        rw [hl, List.all_append, Bool.and_eq_true] at hall
        exact hall.1
      exact .inr ⟨by simp [hname.ne_nil], type, ⟨l, hblank⟩, rfl⟩

/-- A line that declares a field, or begins to in front of a type, adds a field whose name is in the
line or is that of a primitive type. -/
theorem exists_mem_of_declares (hrest : rest ≠ [] → StartsWithType rest)
    (h : DeclaredIn t ∨ rest ≠ [] ∧ OpenedBy t) :
    ∃ e ∈ allMatches recogniser (t ++ '\n' :: rest),
      (∃ type : PrimitiveType, type.typeName = e.1) ∨ e.1.toList <:+: t := by
  have hstart : ∃ u, u <:+ t ∧ u ≠ [] ∧ (recogniser.read (u ++ '\n' :: rest)).isSome := by
    rcases h with ⟨type, blanks, name, hne, hname, before, after, rfl⟩ |
      ⟨hne, type, blanks, hopened⟩
    · refine ⟨type.typeName.toList ++ blanks.val ++ name ++ after, ⟨before, by simp⟩,
        by simp [hname.ne_nil], ?_⟩
      have hp : type.typeName.toList ++ blanks.val ++ name <+:
          type.typeName.toList ++ blanks.val ++ name ++ after := List.prefix_append _ _
      exact isSome_read?_of_prefix hne hname (hp.trans (List.prefix_append _ _))
    · obtain ⟨type', field, after, hread⟩ := read?_of_startsWithType type blanks (hrest hne)
      have hword := (PrimitiveType.isWord_typeName type).ne_nil
      exact ⟨_, hopened, by simp [hword], Option.isSome_of_eq_some hread⟩
  obtain ⟨u, e, after, hu, hread, hmem⟩ := exists_mem_allMatches hstart
  refine ⟨e, hmem, ?_⟩
  rcases cases_of_read? hread with ⟨-, hname⟩ | ⟨hne, type, blanks, rfl⟩
  · exact .inr (hname.trans hu.isInfix)
  · obtain ⟨type', field, after', hread'⟩ := read?_of_startsWithType type blanks (hrest hne)
    obtain ⟨rfl, -⟩ := Prod.mk.inj (Option.some.inj (hread'.symm.trans hread))
    exact .inl ⟨type', rfl⟩

end Field

/-! ## Comments behind members -/

/-- A comment to the end of a line, with white space in front. -/
structure Comment where
  gap : Blanks
  content : List Char
  newline_not_mem : '\n' ∉ content
  brace_not_mem : '\x7d' ∉ content

/-- The comment as it is written. -/
def Comment.text (c : Comment) : List Char := c.gap.val ++ '/' :: '/' :: c.content

theorem Comment.brace_not_mem_text (c : Comment) : '\x7d' ∉ c.text := by
  have hgap : '\x7d' ∉ c.gap.val := fun h => absurd (c.gap.isBlank_of_mem h) (by decide)
  simp [text, hgap, c.brace_not_mem]

theorem Comment.allMatches_text (c : Comment) (s : List Char) :
    allMatches Field.recogniser (c.text ++ s) = allMatches Field.recogniser (c.content ++ s) := by
  rw [text, List.append_assoc, Field.allMatches_blanks c.gap.property, List.cons_append,
    Field.allMatches_cons (by decide), List.cons_append, Field.allMatches_cons (by decide)]

/-- A comment, or none. -/
def commentText (comment : Option Comment) : List Char := (comment.map Comment.text).getD []

theorem brace_not_mem_commentText (comment : Option Comment) : '\x7d' ∉ commentText comment := by
  cases comment with
  | none => exact List.not_mem_nil
  | some c => exact c.brace_not_mem_text

/-- A member of a struct, up to its semicolon, and the comment behind it. -/
structure Member where
  declaration : List Char
  brace_not_mem : '\x7d' ∉ declaration
  comment : Option Comment

namespace Member

/-- The line of the member. -/
def line (m : Member) : List Char :=
  m.declaration ++ ';' :: (commentText m.comment ++ ['\n'])

/-- The member without its comment. -/
def bare (m : Member) : Member := { m with comment := none }

/-- The member is declared with a primitive type. -/
def Primitive (m : Member) : Prop := Field.StartsWithType m.declaration

/-- The fields that the member declares. -/
def fields (m : Member) : List (String × Field) := allMatches Field.recogniser m.declaration

theorem brace_not_mem_line (m : Member) : '\x7d' ∉ m.line := by
  simp [line, m.brace_not_mem, brace_not_mem_commentText]

/-- Behind its semicolon the line goes on with the comment. -/
theorem allMatches_line (m : Member) (rest : List Char) :
    allMatches Field.recogniser (m.line ++ rest) =
      m.fields ++ allMatches Field.recogniser (commentText m.comment ++ '\n' :: rest) := by
  have hline : m.line ++ rest =
      m.declaration ++ ';' :: (commentText m.comment ++ '\n' :: rest) := by
    simp [line]
  rw [hline, Field.allMatches_semicolon, fields]

theorem flatMap_line_ne_nil_iff {ms : List Member} : ms.flatMap line ≠ [] ↔ ms ≠ [] := by
  cases ms <;> simp [line]

/-- In front of members with primitive types stands a type. -/
theorem startsWithType_flatMap_line {ms : List Member} (h : ∀ m ∈ ms, m.Primitive) (hne : ms ≠ []) :
    Field.StartsWithType (ms.flatMap line) := by
  obtain ⟨m, ms, rfl⟩ := List.exists_cons_of_ne_nil hne
  have hm : m.Primitive := h m List.mem_cons_self
  rw [List.flatMap_cons, line, List.append_assoc]
  exact hm.append _

end Member

/-! ## Quiet comments -/

/-- The comment does not declare a field, nor begins to in front of a member. -/
structure Comment.QuietBefore (c : Comment) (ms : List Member) : Prop where
  not_declaredIn : ¬ Field.DeclaredIn c.content
  not_openedBy : ms ≠ [] → ¬ Field.OpenedBy c.content

/-- The comment, or none, is quiet in front of the members, and so is each of theirs. -/
def QuietLines : Option Comment → List Member → Prop
  | comment, [] => ∀ c ∈ comment, c.QuietBefore []
  | comment, m :: ms => (∀ c ∈ comment, c.QuietBefore (m :: ms)) ∧ QuietLines m.comment ms

variable {c : Comment} {comment : Option Comment} {ms : List Member}

/-- A comment without the name of a primitive type is quiet. -/
theorem Comment.quietBefore_of_absent
    (h : ∀ type : PrimitiveType, ¬ type.typeName.toList <:+: c.content) : c.QuietBefore ms where
  not_declaredIn := by
    rintro ⟨type, blanks, name, -, -, hi⟩
    rw [List.append_assoc] at hi
    exact h type ((List.prefix_append _ _).isInfix.trans hi)
  not_openedBy := fun _ ⟨type, _, hs⟩ =>
    h type ((List.prefix_append _ _).isInfix.trans hs.isInfix)

/-- The scan passes over a quiet comment. -/
theorem Comment.QuietBefore.allMatches_text (h : c.QuietBefore ms) :
    allMatches Field.recogniser (c.text ++ '\n' :: ms.flatMap Member.line) =
      allMatches Field.recogniser (ms.flatMap Member.line) := by
  rw [Comment.allMatches_text, allMatches_append_of_none, Field.allMatches_cons (by decide)]
  intro t ht _
  refine Option.eq_none_iff_forall_not_mem.2 fun m hm => ?_
  rcases Field.cases_of_read? hm with ⟨hdeclared, -⟩ | ⟨hne, type, blanks, rfl⟩
  · exact h.not_declaredIn (hdeclared.mono ht.isInfix)
  · exact h.not_openedBy (Member.flatMap_line_ne_nil_iff.1 hne) ⟨type, blanks, ht⟩

theorem allMatches_commentText (h : ∀ c ∈ comment, c.QuietBefore ms) :
    allMatches Field.recogniser (commentText comment ++ '\n' :: ms.flatMap Member.line) =
      allMatches Field.recogniser (ms.flatMap Member.line) := by
  cases comment with
  | none => exact Field.allMatches_cons (by decide)
  | some c => exact (h c rfl).allMatches_text

/-- With quiet comments the fields are those of the members. -/
theorem allMatches_of_quietLines (h : QuietLines comment ms) :
    allMatches Field.recogniser (commentText comment ++ '\n' :: ms.flatMap Member.line) =
      ms.flatMap Member.fields := by
  induction ms generalizing comment with
  | nil =>
    rw [allMatches_commentText h]
    simp [allMatches]
  | cons m ms ih =>
    rw [allMatches_commentText h.1, List.flatMap_cons, Member.allMatches_line, ih h.2,
      List.flatMap_cons]

theorem quietLines_bare (ms : List Member) : QuietLines none (ms.map Member.bare) := by
  induction ms with
  | nil => simp [QuietLines]
  | cons m ms ih => exact ⟨by simp, ih⟩

/-! ## Comments that are not quiet -/

/-- The comments behind the opening and the members. -/
def commentsOf (comment : Option Comment) (ms : List Member) : List Comment :=
  comment.toList ++ ms.flatMap fun m => m.comment.toList

/-- The name is that of a primitive type, or occurs in a comment. -/
def Mentioned (comments : List Comment) (name : String) : Prop :=
  (∃ type : PrimitiveType, type.typeName = name) ∨ ∃ c ∈ comments, name.toList <:+: c.content

theorem Mentioned.mono {comments comments' : List Comment} {name : String}
    (h : Mentioned comments name) (hs : comments ⊆ comments') : Mentioned comments' name :=
  h.imp_right fun ⟨c, hc, hi⟩ => ⟨c, hs hc, hi⟩

theorem exists_mentioned_of_not_quiet (hms : ∀ m ∈ ms, m.Primitive)
    (h : ¬ ∀ c ∈ comment, c.QuietBefore ms) :
    ∃ e ∈ allMatches Field.recogniser (commentText comment ++ '\n' :: ms.flatMap Member.line),
      Mentioned comment.toList e.1 := by
  simp only [not_forall] at h
  obtain ⟨c, rfl, hc⟩ := h
  have hdeclares : Field.DeclaredIn c.content ∨
      ms.flatMap Member.line ≠ [] ∧ Field.OpenedBy c.content := by
    rw [Member.flatMap_line_ne_nil_iff]
    by_contra hn
    rw [not_or, not_and] at hn
    exact hc ⟨hn.1, hn.2⟩
  have hstarts : ms.flatMap Member.line ≠ [] → Field.StartsWithType (ms.flatMap Member.line) :=
    fun hne => Member.startsWithType_flatMap_line hms (Member.flatMap_line_ne_nil_iff.1 hne)
  obtain ⟨e, he, hname⟩ := Field.exists_mem_of_declares hstarts hdeclares
  rw [← c.allMatches_text] at he
  exact ⟨e, he, hname.imp_right fun hi => ⟨c, List.mem_singleton_self c, hi⟩⟩

/-- Where not all comments are quiet, a field is read whose name is mentioned. -/
theorem exists_mentioned_of_not_quietLines (hms : ∀ m ∈ ms, m.Primitive)
    (h : ¬ QuietLines comment ms) :
    ∃ e ∈ allMatches Field.recogniser (commentText comment ++ '\n' :: ms.flatMap Member.line),
      Mentioned (commentsOf comment ms) e.1 := by
  induction ms generalizing comment with
  | nil =>
    obtain ⟨e, he, hname⟩ := exists_mentioned_of_not_quiet hms h
    exact ⟨e, he, hname.mono (List.subset_append_left _ _)⟩
  | cons m ms ih =>
    by_cases hcomment : ∀ c ∈ comment, c.QuietBefore (m :: ms)
    · -- the scan gets to the line of `m`, and the comment is there or behind
      have hlines : ¬ QuietLines m.comment ms := fun hlines => h ⟨hcomment, hlines⟩
      obtain ⟨e, he, hname⟩ := ih (fun m' hm => hms m' (List.mem_cons_of_mem m hm)) hlines
      rw [allMatches_commentText hcomment, List.flatMap_cons, Member.allMatches_line]
      exact ⟨e, List.mem_append_right _ he, hname.mono (List.subset_append_right _ _)⟩
    · obtain ⟨e, he, hname⟩ := exists_mentioned_of_not_quiet hms hcomment
      exact ⟨e, he, hname.mono (List.subset_append_left _ _)⟩

/-! ## Structs with comments -/

/-- A struct with a member on each line, and comments behind the opening brace and the members. -/
structure CommentedStruct where
  name : String
  isWord_name : IsWord name.toList
  /-- The white space in front of the opening brace. -/
  gap : Blanks
  opening : Option Comment
  members : List Member

namespace CommentedStruct

variable {s : CommentedStruct} {pre : String}

/-- What stands in the braces. -/
def body (s : CommentedStruct) : List Char :=
  commentText s.opening ++ '\n' :: s.members.flatMap Member.line

/-- The struct as it is written. -/
def text (s : CommentedStruct) : String :=
  .ofList (structHead s.name ++ (s.gap.val ++ '\x7b' :: (s.body ++ ['\x7d', ';'])))

/-- The struct without its comments. -/
def bare (s : CommentedStruct) : CommentedStruct :=
  { s with opening := none, members := s.members.map Member.bare }

/-- All comments are quiet in front of the members behind them. -/
def Quiet (s : CommentedStruct) : Prop := QuietLines s.opening s.members

/-- The name is that of a primitive type, or occurs in a comment of the struct. -/
def Mentions (s : CommentedStruct) (name : String) : Prop :=
  Mentioned (commentsOf s.opening s.members) name

theorem brace_not_mem_body (s : CommentedStruct) : '\x7d' ∉ s.body := by
  simp [body, brace_not_mem_commentText, Member.brace_not_mem_line]

/-- The fields are read off the body, behind any text that opens no struct of this name. -/
theorem layout_text (s : CommentedStruct) (hpre : ¬ OpensStruct s.name pre.toList) (post : String) :
    layout s.name (pre ++ s.text ++ post) = .ofList (allMatches Field.recogniser s.body) := by
  have htext : (pre ++ s.text ++ post).toList = pre.toList ++ (structHead s.name ++
      (s.gap.val ++ '\x7b' :: (s.body ++ '\x7d' :: ';' :: post.toList))) := by
    simp [text]
  have hbody : structBody? s.name (pre ++ s.text ++ post).toList = some s.body := by
    rw [htext]
    exact structBody?_append s.isWord_name hpre s.gap (by simp [body]) s.brace_not_mem_body _
  rw [layout, hbody]

/-- Without comments the fields are those of the members. -/
theorem layout_bare (s : CommentedStruct) (hpre : ¬ OpensStruct s.name pre.toList) (post : String) :
    layout s.name (pre ++ s.bare.text ++ post) = .ofList (s.members.flatMap Member.fields) := by
  have hfields : allMatches Field.recogniser s.bare.body = s.members.flatMap Member.fields := by
    have hquiet : QuietLines s.bare.opening s.bare.members := quietLines_bare s.members
    rw [body, allMatches_of_quietLines hquiet, bare, List.flatMap_map]
    rfl
  rw [← hfields]
  exact s.bare.layout_text hpre post

end CommentedStruct

/-- A struct has the fields that it has without its comments, if these are quiet. Where the name of
no such field is that of a primitive type or occurs in a comment, it has them only if so. -/
theorem layout_commented (s : CommentedStruct) {pre : String}
    (hpre : ¬ OpensStruct s.name pre.toList) (post : String) :
    (s.Quiet →
      layout s.name (pre ++ s.text ++ post) = layout s.name (pre ++ s.bare.text ++ post)) ∧
    ((∀ m ∈ s.members, m.Primitive) →
      (∀ name ∈ (layout s.name (pre ++ s.bare.text ++ post)).keys, ¬ s.Mentions name) →
      layout s.name (pre ++ s.text ++ post) = layout s.name (pre ++ s.bare.text ++ post) →
      s.Quiet) := by
  refine ⟨fun hquiet => ?_, fun hprimitive hnames hsame => ?_⟩
  · rw [s.layout_text hpre, s.layout_bare hpre, CommentedStruct.body,
      allMatches_of_quietLines hquiet]
  · by_contra hquiet
    obtain ⟨e, he, hname⟩ := exists_mentioned_of_not_quietLines hprimitive hquiet
    have hkey : e.1 ∈ (layout s.name (pre ++ s.text ++ post)).keys := by
      rw [s.layout_text hpre, OrderedMap.mem_keys_ofList_iff]
      exact List.mem_map_of_mem he
    rw [hsame] at hkey
    exact hnames e.1 hkey hname

/-- A struct with one member, and comments behind it and the opening brace. -/
def frequencyStruct (opening : Comment) : CommentedStruct where
  name := "N"
  isWord_name := by decide
  gap := Blanks.none
  opening := some opening
  members := [⟨"float freq".toList, by decide,
    some ⟨Blanks.none, " in MHz".toList, by decide, by decide⟩⟩]

/-- A comment without the name of a type. -/
def persistedComment : Comment := ⟨Blanks.none, " persisted to file".toList, by decide, by decide⟩

/-- A comment that ends in the name of a type. -/
def typeComment : Comment := ⟨Blanks.none, " was int".toList, by decide, by decide⟩

theorem layout_frequencyStruct : ¬ OpensStruct "N" "".toList ∧
    (frequencyStruct persistedComment).Quiet ∧
    layout "N" ("" ++ (frequencyStruct persistedComment).text ++ "") =
      layout "N" ("" ++ (frequencyStruct persistedComment).bare.text ++ "") ∧
    ¬ (frequencyStruct typeComment).Quiet ∧
    layout "N" ("" ++ (frequencyStruct typeComment).text ++ "") ≠
      layout "N" ("" ++ (frequencyStruct typeComment).bare.text ++ "") := by
  have hpre : ¬ OpensStruct "N" "".toList := not_opensStruct (by decide)
  have hquiet : (frequencyStruct persistedComment).Quiet := by
    refine ⟨fun c hc => ?_, fun c hc => ?_⟩ <;>
    · obtain rfl := Option.some.inj hc
      refine Comment.quietBefore_of_absent fun type => ?_
      cases type <;> decide
  have hopened : ¬ (frequencyStruct typeComment).Quiet := fun h =>
    (h.1 typeComment rfl).not_openedBy (List.cons_ne_nil _ _) ⟨.int, Blanks.none, by decide⟩
  have hprimitive : ∀ m ∈ (frequencyStruct typeComment).members, m.Primitive :=
    List.forall_mem_singleton.2 ⟨Blanks.none, .float, ' ', "freq".toList, by decide, rfl⟩
  have hfields : layout "N" ("" ++ (frequencyStruct typeComment).bare.text ++ "") =
      .ofList [("freq", ⟨.float, none⟩)] := by decide +kernel
  have hnames : ∀ name ∈ (layout "N" ("" ++ (frequencyStruct typeComment).bare.text ++ "")).keys,
      ¬ (frequencyStruct typeComment).Mentions name := by
    intro name hname
    rw [hfields, OrderedMap.mem_keys_ofList_iff] at hname
    obtain rfl := List.mem_singleton.1 hname
    rintro (⟨type, htype⟩ | ⟨c, hc, hi⟩)
    · cases type <;> exact absurd htype (by decide)
    · have hpair : c ∈ [_, _] := hc
      rcases List.mem_pair.1 hpair with rfl | rfl <;> exact absurd hi (by decide)
  obtain ⟨hsame, -⟩ := layout_commented (frequencyStruct persistedComment) hpre ""
  obtain ⟨-, honly⟩ := layout_commented (frequencyStruct typeComment) hpre ""
  exact ⟨hpre, hquiet, hsame hquiet, hopened, fun h => hopened (honly hprimitive hnames h)⟩

/-- The comment takes the type of the member for a name. -/
example : layout "N" "struct N \x7b // was int\n  float a;\n\x7d;" =
    .ofList [("float", ⟨.int, none⟩)] := by decide +kernel

end CliParity
