import CliParity.Proofs.Dispatcher.Block
import CliParity.Proofs.Text.Trim

/-!
# Which names are canonical

A name is built from the compared literal in one of two ways (`NamedBy`): the trimmed literal alone,
or with the word of a block in front. It is well formed (`WellNamed`) if it is not empty, is its own
trim, and says something behind the word of a block. A literal is not empty, but it may be all white
space, and then nothing is left of it. This is the one way for a name to go wrong
(`wellNamed_extract_iff`).
-/

set_option autoImplicit false

namespace CliParity.Dispatcher

open Text

/-- How the name of a comparison on line `i` is built. -/
inductive NamedBy (ls : List (List Char)) (i : Nat) (comparison : Comparison) : String → Prop
  /-- By the trimmed literal, for the whole command line or a setting in no block. -/
  | bare (h : comparison.subject = .config → ¬ ∃ b, InBlock ls i b) :
      NamedBy ls i comparison comparison.keyword
  /-- By the trimmed literal behind the word of the block that a setting is in. -/
  | setting (h : comparison.subject = .config) (b : Block) (hb : InBlock ls i b) :
      NamedBy ls i comparison (b.word ++ comparison.keyword)

/-- A well-formed name of a comparison on line `i`. -/
structure WellNamed (ls : List (List Char)) (i : Nat) (comparison : Comparison) (c : Command) :
    Prop where
  nonempty : c.name ≠ ""
  trimmed : trim c.name.toList = c.name.toList
  /-- Something is behind the word of a block. -/
  setting : comparison.subject = .config → ∀ b, InBlock ls i b →
    ∃ key, key ≠ "" ∧ c.name = b.word ++ key

variable {settings : Settings} {ls : List (List Char)} {i : Nat} {c : Command}
  {comparison : Comparison}

theorem namedBy_of_descriptorAt? (h : descriptorAt? settings .initial ls i = some c) :
    ∃ line comparison, ls[i]? = some line ∧ Comparison.first? line = some comparison ∧
      NamedBy ls i comparison c.name := by
  obtain ⟨line, comparison, hl, hcomparison, rfl⟩ := exists_of_descriptorAt? h
  refine ⟨line, comparison, hl, hcomparison, ?_⟩
  have hblock : ∀ b, _ ↔ InBlock ls i b := fun b => block_enter_iff hl
  rw [(describe_named settings.catalog _ comparison _).1]
  obtain ⟨subject, literal, declaredLength⟩ := comparison
  cases subject with
  | command => exact .bare nofun
  | config =>
    cases hb : ((Context.initial.passAll (ls.take i)).enter line).block with
    | none =>
      refine .bare fun _ ⟨b, hin⟩ => ?_
      rw [← hblock b, hb] at hin
      cases hin
    | some b => exact .setting rfl b ((hblock b).1 hb)

/-! ## The two ways -/

theorem keyword_eq_empty_iff (comparison : Comparison) :
    comparison.keyword = "" ↔ comparison.literal.all isBlank := by
  rw [Comparison.keyword, ← trim_eq_nil_iff, ← String.toList_inj, String.toList_ofList]
  rfl

theorem trimmed_keyword (comparison : Comparison) : Trimmed comparison.keyword.toList := by
  rw [Comparison.keyword, String.toList_ofList]
  exact trimmed_trim comparison.literal

/-- The word of a block ends in white space, so it is trimmed only with something behind it. -/
theorem trimmed_word_append_iff (b : Block) {key : String} (hkey : Trimmed key.toList) :
    Trimmed (b.word ++ key).toList ↔ key ≠ "" := by
  constructor
  · rintro h rfl
    have hlast : ' ' ∈ (b.word ++ "").toList.getLast? := by cases b <;> decide
    exact absurd (h.last ' ' hlast) (by decide)
  · intro hne
    have hlist : key.toList ≠ [] := by simpa using hne
    rw [String.toList_append]
    constructor
    · cases b <;> simp [Block.word, isBlank, inRanges, blankRanges]
    · rw [List.getLast?_append_of_ne_nil _ hlist]
      exact hkey.last

/-- A line is in one block at most. -/
theorem InBlock.unique {line : List Char} {b b' : Block} (hl : ls[i]? = some line)
    (h : InBlock ls i b) (h' : InBlock ls i b') : b = b' :=
  Option.some.inj (((block_enter_iff hl).2 h).symm.trans ((block_enter_iff hl).2 h'))

/-- The name is well formed exactly if something is left of the literal. -/
theorem wellNamed_iff {line : List Char} (hl : ls[i]? = some line)
    (h : NamedBy ls i comparison c.name) :
    WellNamed ls i comparison c ↔ ¬ comparison.literal.all isBlank := by
  have hkeyword := trimmed_keyword comparison
  rw [← keyword_eq_empty_iff, ← ne_eq]
  generalize hn : c.name = name at h
  cases h with
  | bare hnone =>
    constructor
    · intro hwell
      exact hn ▸ hwell.nonempty
    · intro hne
      refine ⟨hn ▸ hne, ?_, fun hsubject b hb => absurd ⟨b, hb⟩ (hnone hsubject)⟩
      rw [hn, trim_of_trimmed hkeyword]
  | setting _ b hb =>
    constructor
    · intro hwell
      rw [← trimmed_word_append_iff b hkeyword, ← trim_eq_self_iff, ← hn]
      exact hwell.trimmed
    · intro hne
      have htrimmed := (trimmed_word_append_iff b hkeyword).2 hne
      refine ⟨?_, hn ▸ trim_of_trimmed htrimmed, fun _ b' hb' => ⟨comparison.keyword, hne, ?_⟩⟩
      · rw [hn]
        cases b <;> simp [Block.word]
      · rw [hn, hb.unique hl hb']

/-- What is left of a name if nothing is left of the literal. -/
theorem name_of_blank_literal (h : NamedBy ls i comparison c.name)
    (hblank : comparison.literal.all isBlank) : c.name = "" ∨ ∃ b : Block, c.name = b.word := by
  have hkeyword := (keyword_eq_empty_iff comparison).2 hblank
  generalize hn : c.name = name at h
  cases h with
  | bare hnone => exact .inl hkeyword
  | setting _ b hb => exact .inr ⟨b, by rw [hkeyword, String.append_empty]⟩

/-! ## The commands -/

/-- **Canonical names.** A command of a dispatcher has a well-formed name if and only if the literal
of its first match is not all white space. The name is else empty or the bare word of a block. -/
theorem wellNamed_extract_iff (settings : Settings) (source : String) :
    ∀ c ∈ extract settings source,
      (∃ i, FirstMatch settings (lines source.toList) i c) ∧
      ∀ i, FirstMatch settings (lines source.toList) i c →
        ∃ line comparison, (lines source.toList)[i]? = some line ∧
          Comparison.first? line = some comparison ∧
          (WellNamed (lines source.toList) i comparison c ↔ ¬ comparison.literal.all isBlank) ∧
          (comparison.literal.all isBlank → c.name = "" ∨ ∃ b : Block, c.name = b.word) := by
  intro c hc
  refine ⟨mem_extract_iff.1 hc, fun i hi => ?_⟩
  obtain ⟨line, comparison, hl, hcomparison, hnamed⟩ := namedBy_of_descriptorAt? hi.1
  exact ⟨line, comparison, hl, hcomparison, wellNamed_iff hl hnamed, name_of_blank_literal hnamed⟩

/-- A comparison with a blank in a block of reads. -/
def blankSetting : String := "GET commands\nmemcmp(config, \" \", 1)"

/-- Its command goes by the bare word of the block, which is no canonical name. -/
theorem blank_setting_named :
    ∃ c ∈ extract .meshCore blankSetting, c.name = "get " ∧
      ∃ i comparison, FirstMatch .meshCore (lines blankSetting.toList) i c ∧
        ¬ WellNamed (lines blankSetting.toList) i comparison c ∧
        comparison.literal.all isBlank := by
  obtain ⟨c, hc, hname⟩ : ∃ c ∈ extract .meshCore blankSetting, c.name = "get " :=
    ⟨⟨"get ", .get, [], none, "Execute get  command", false, true⟩, by decide +kernel, rfl⟩
  obtain ⟨⟨i, hi⟩, h⟩ := wellNamed_extract_iff .meshCore blankSetting c hc
  obtain ⟨line, comparison, -, -, hiff, -⟩ := h i hi
  have htrimmed : trim "get ".toList ≠ "get ".toList := by decide
  have hnot : ¬ WellNamed (lines blankSetting.toList) i comparison c :=
    fun hwell => htrimmed (hname ▸ hwell.trimmed)
  exact ⟨c, hc, hname, i, comparison, hi, hnot, not_not.1 (mt hiff.2 hnot)⟩

end CliParity.Dispatcher
