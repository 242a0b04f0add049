import CliParity.Preferences.Layout
import CliParity.Proofs.Text.Occurrence
import CliParity.Proofs.Text.Trim
import CliParity.Proofs.Text.Word

/-!
# Where the struct is found

The reader of a struct reads exactly its head, white space and a body in braces
(`readStruct?_eq_some_iff`). A struct is found behind any text in which none of its name is opened
(`structBody?_append`), so behind any text that does not hold `struct` (`not_opensStruct`).
-/

set_option autoImplicit false

namespace CliParity

open Text

/-- What a struct of this name starts with. -/
def structHead (structName : String) : List Char := "struct ".toList ++ structName.toList

/-- Somewhere in the text stands the head of a struct of this name with its opening brace. -/
def OpensStruct (structName : String) (s : List Char) : Prop :=
  ∃ blanks : Blanks, structHead structName ++ blanks.val ++ ['\x7b'] <:+: s

variable {structName : String} {s t body rest : List Char}

theorem structHead_eq (structName : String) :
    structHead structName = "struct".toList ++ ' ' :: structName.toList := rfl

theorem structHead_ne_nil (structName : String) : structHead structName ≠ [] := by
  rw [structHead_eq]
  exact List.append_ne_nil_of_right_ne_nil _ (List.cons_ne_nil _ _)

theorem not_opensStruct (h : ¬ "struct".toList <:+: s) : ¬ OpensStruct structName s := by
  rintro ⟨blanks, hs⟩
  rw [structHead_eq, List.append_assoc, List.append_assoc] at hs
  exact h ((List.prefix_append _ _).isInfix.trans hs)

theorem readStruct?_eq_some_iff : readStruct? structName s = some (body, rest) ↔
    ∃ blanks : Blanks, body ≠ [] ∧ '\x7d' ∉ body ∧
      s = structHead structName ++ (blanks.val ++ '\x7b' :: (body ++ '\x7d' :: rest)) := by
  have hhead : "struct ".toList ++ structName.toList = structHead structName := rfl
  have hopen : ∀ {s t}, after? ['\x7b'] (skipBlanks s) = some t ↔
      ∃ blanks : Blanks, s = blanks.val ++ '\x7b' :: t :=
    after?_skipBlanks_eq_some_iff (by decide)
  have hbody : ∀ {body : List Char}, body.all (· != '\x7d') ↔ '\x7d' ∉ body := by
    intro body
    simp only [List.all_eq_true, bne_iff_ne]
    exact ⟨fun h hm => h _ hm rfl, fun h c hc he => h (he ▸ hc)⟩
  simp only [readStruct?, hhead, Option.bind_eq_bind, Option.bind_eq_some_iff, Option.pure_def,
    Option.some.injEq, Prod.mk.injEq, Prod.exists, after?_eq_some_iff, hopen, run?_eq_some_iff,
    hbody]
  constructor
  · rintro ⟨s₁, rfl, s₂, ⟨blanks, rfl⟩, body, s₃, ⟨hne, hbrace, -, rfl⟩, s₄, rfl, rfl, rfl⟩
    exact ⟨blanks, hne, hbrace, rfl⟩
  · rintro ⟨blanks, hne, hbrace, rfl⟩
    exact ⟨_, rfl, _, ⟨blanks, rfl⟩, body, _, ⟨hne, hbrace, by simp, rfl⟩, rest, rfl, rfl, rfl⟩

/-! ## Behind other text -/

theorem brace_not_mem_structHead (hname : IsWord structName.toList) :
    '\x7b' ∉ structHead structName := by
  rw [structHead_eq, List.mem_append, List.mem_cons, not_or, not_or]
  exact ⟨by decide, by decide, hname.not_mem (by decide)⟩

theorem isBlank_last_structHead (hname : IsWord structName.toList) :
    ∀ c ∈ (structHead structName).getLast?, isBlank c = false := by
  intro c hc
  rw [structHead_eq, List.getLast?_append_of_ne_nil _ (List.cons_ne_nil _ _),
    List.getLast?_cons_of_ne_nil hname.ne_nil] at hc
  exact isBlank_of_isWord (List.all_eq_true.1 hname.all_isWord c (List.mem_of_mem_getLast? hc))

theorem brace_not_mem_blanks (blanks : Blanks) : '\x7b' ∉ blanks.val :=
  fun h => absurd (blanks.isBlank_of_mem h) (by decide)

/-- In front of a struct none is read, unless one is opened there. -/
theorem readStruct?_append_eq_none (hname : IsWord structName.toList)
    (hs : ¬ OpensStruct structName s) (ht : t <:+ s) (hne : t ≠ []) (blanks : Blanks)
    (rest : List Char) :
    readStruct? structName (t ++ (structHead structName ++ (blanks.val ++ '\x7b' :: rest))) =
      none := by
  refine Option.eq_none_iff_forall_not_mem.2 fun (body, after) hread => ?_
  obtain ⟨blanks', -, -, he⟩ := readStruct?_eq_some_iff.1 hread
  have hhead := brace_not_mem_structHead hname
  have hopening : ∀ blanks : Blanks, '\x7b' ∉ structHead structName ++ blanks.val := by
    intro blanks
    simp [hhead, brace_not_mem_blanks]
  rw [← List.append_assoc (structHead structName) blanks'.val] at he
  by_cases hbrace : '\x7b' ∈ t
  · -- the opening brace is in front, so the whole opening is
    obtain ⟨a, b, rfl, ha⟩ := List.eq_append_cons_of_mem hbrace
    rw [List.append_assoc, List.cons_append] at he
    obtain ⟨rfl, -⟩ := append_cons_inj ha (hopening blanks') he
    have hopens : structHead structName ++ blanks'.val ++ ['\x7b'] <+:
        structHead structName ++ blanks'.val ++ '\x7b' :: b := ⟨b, by simp⟩
    exact hs ⟨blanks', hopens.isInfix.trans ht.isInfix⟩
  · -- else the brace is that of the struct, and nothing is in front of its head
    rw [← List.append_assoc (structHead structName), ← List.append_assoc] at he
    have hfront : '\x7b' ∉ t ++ (structHead structName ++ blanks.val) := by
      rw [List.mem_append, not_or]
      exact ⟨hbrace, hopening blanks⟩
    obtain ⟨htext, -⟩ := append_cons_inj hfront (hopening blanks') he
    have hlast := isBlank_last_structHead hname
    have hlast' : ∀ c ∈ (t ++ structHead structName).getLast?, isBlank c = false := by
      rwa [List.getLast?_append_of_ne_nil t (structHead_ne_nil structName)]
    have htrim : t ++ structHead structName = structHead structName := by
      rw [← trimEnd_of_last hlast', ← trimEnd_append (t ++ structHead structName) blanks.property,
        List.append_assoc, htext, trimEnd_append _ blanks'.property, trimEnd_of_last hlast]
    exact hne (List.append_left_eq_self.1 htrim)

/-- The struct of a name is found behind a text that opens none. -/
theorem structBody?_append (hname : IsWord structName.toList) (hs : ¬ OpensStruct structName s)
    (blanks : Blanks) (hbody : body ≠ []) (hbrace : '\x7d' ∉ body) (rest : List Char) :
    structBody? structName (s ++ (structHead structName ++
      (blanks.val ++ '\x7b' :: (body ++ '\x7d' :: rest)))) = some body := by
  have hfront : ∀ t, t <:+ s → t ≠ [] → readStruct? structName (t ++ (structHead structName ++
      (blanks.val ++ '\x7b' :: (body ++ '\x7d' :: rest)))) = none :=
    fun t ht hne => readStruct?_append_eq_none hname hs ht hne blanks _
  rw [structBody?, firstMatch?_append_of_none hfront]
  exact firstMatch?_of_read (List.cons_ne_nil _ _)
    (readStruct?_eq_some_iff.2 ⟨blanks, hbody, hbrace, rfl⟩)

end CliParity
