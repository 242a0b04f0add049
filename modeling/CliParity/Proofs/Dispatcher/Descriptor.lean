import CliParity.Proofs.Dispatcher.Alike
import CliParity.Proofs.Dispatcher.Block

/-!
# What a descriptor says

`Describes settings ls i comparison c` says field by field what the descriptor of a comparison on
line `i` tells, on the lines alone: its category by its name or for want of a block, its description
by the catalog (`Catalog.Lists`), its arguments by the lines of the window that convert one
(`forall₂_conversionLines`), and its reply by the first line of the window that writes one
(`findSome?_window`). Each line of a dispatcher that yields a descriptor yields one of which this
holds (`describes_of_descriptorAt?`), so it holds of all its commands (`extract_consistent`).
-/

set_option autoImplicit false

namespace CliParity

open Text

/-! ## The catalog -/

/-- The last entry of a name in the table of descriptions has this text. -/
def Catalog.Lists (catalog : Catalog) (name text : String) : Prop :=
  ∃ before after, catalog.descriptions = before ++ (name, text) :: after ∧ ∀ e ∈ after, e.1 ≠ name

/-- A name is described by the text that the catalog lists for it, and a name that it does not list
in a general way. -/
theorem Catalog.describe_cases (catalog : Catalog) (name : String) :
    catalog.Lists name (catalog.describe name) ∨
      ((∀ e ∈ catalog.descriptions, e.1 ≠ name) ∧
        catalog.describe name = "Execute " ++ name ++ " command") := by
  unfold Catalog.describe
  cases h : catalog.descriptions.reverse.lookup name with
  | none =>
    refine .inr ⟨fun e he => ?_, rfl⟩
    have := List.lookup_eq_none_iff.1 h e (List.mem_reverse.2 he)
    exact fun hn => by simp [hn] at this
  | some text =>
    left
    obtain ⟨after, before, he, hafter⟩ := List.lookup_eq_some_iff.1 h
    refine ⟨before.reverse, after.reverse, ?_, fun e hm => ?_⟩
    · rw [← List.reverse_reverse catalog.descriptions, he]
      simp
    · have := hafter e (List.mem_reverse.1 hm)
      exact fun hn => by simp [hn] at this

namespace Dispatcher

/-- A name with the word of a block in front is of the block's category. -/
theorem ofName_word_append (b : Block) (keyword : String) :
    Category.ofName (b.word ++ keyword) = b.category := by
  cases b <;>
    simp [Category.ofName, Category.leadingTexts, Block.word, Block.category, List.isPrefixOf]

/-- A setting that is compared in a block. -/
theorem nameAndCategory_setting {comparison : Comparison} (h : comparison.subject = .config)
    (b : Block) :
    nameAndCategory (some b) comparison = (b.word ++ comparison.keyword, b.category) := by
  obtain ⟨subject, literal, declaredLength⟩ := comparison
  obtain rfl : subject = .config := h
  rfl

/-! ## The window -/

/-- Line `k` is searched for the reply and the arguments of a comparison on line `i`. -/
def InWindow (lookahead : Nat) (ls : List (List Char)) (i k : Nat) : Prop :=
  i ≤ k ∧ k < min (i + lookahead) ls.length

section
variable {α : Type} {lookahead : Nat} {ls : List (List Char)} {line : List Char} {i k : Nat}

theorem window_zero (ls : List (List Char)) (i : Nat) : window 0 ls i = [] := by
  simp [window_eq]

theorem window_succ (lookahead : Nat) (hi : i < ls.length) :
    window (lookahead + 1) ls i = ls[i] :: window lookahead ls (i + 1) := by
  rw [window_eq, window_eq, List.drop_eq_getElem_cons hi, List.take_succ_cons]

theorem window_of_length_le (lookahead : Nat) (hi : ls.length ≤ i) :
    window lookahead ls i = [] := by
  simp [window_eq, List.drop_eq_nil_of_le hi]

theorem mem_window_iff :
    line ∈ window lookahead ls i ↔ ∃ k, InWindow lookahead ls i k ∧ ls[k]? = some line := by
  unfold InWindow
  rw [window_eq, List.mem_iff_getElem?]
  constructor
  · rintro ⟨m, hm⟩
    rw [List.getElem?_take] at hm
    split at hm
    · rw [List.getElem?_drop] at hm
      have := (List.getElem?_eq_some_iff.1 hm).1
      exact ⟨i + m, by omega, hm⟩
    · cases hm
  · rintro ⟨k, ⟨hik, hk⟩, hl⟩
    refine ⟨k - i, ?_⟩
    rw [List.getElem?_take_of_lt (by omega), List.getElem?_drop, Nat.add_sub_cancel' hik, hl]

/-- What is found first in a window is found on its first line that shows something. -/
theorem findSome?_window {f : List Char → Option α} {a : α} (hk : InWindow lookahead ls i k)
    (hl : ls[k]? = some line) (ha : f line = some a)
    (hfirst : ∀ j, i ≤ j → j < k → ∀ line ∈ ls[j]?, f line = none) :
    (window lookahead ls i).findSome? f = some a := by
  unfold InWindow at hk
  induction lookahead generalizing i with
  | zero => omega
  | succ lookahead ih =>
    have hi : i < ls.length := by omega
    rw [window_succ lookahead hi, List.findSome?_cons]
    rcases Nat.eq_or_lt_of_le hk.1 with rfl | hik
    · rw [List.getElem?_eq_getElem hi] at hl
      rw [Option.some.inj hl, ha]
    · rw [hfirst i (Nat.le_refl i) hik _ (List.getElem?_eq_getElem hi)]
      exact ih (by omega) fun j hij hjk => hfirst j (Nat.le_of_succ_le hij) hjk

/-- The lines of the window that convert an argument, in order. -/
def conversionLines (lookahead : Nat) (ls : List (List Char)) (i : Nat) : List Nat :=
  (List.range' i (min lookahead (ls.length - i))).filter fun k =>
    ls[k]?.any fun line => (argumentType? line).isSome

theorem sorted_conversionLines (lookahead : Nat) (ls : List (List Char)) (i : Nat) :
    (conversionLines lookahead ls i).Pairwise (· < ·) :=
  List.Pairwise.filter _ List.pairwise_lt_range'

theorem length_conversionLines_le (lookahead : Nat) (ls : List (List Char)) (i : Nat) :
    (conversionLines lookahead ls i).length ≤ min lookahead (ls.length - i) := by
  have := List.length_filter_le (fun k => ls[k]?.any fun line => (argumentType? line).isSome)
    (List.range' i (min lookahead (ls.length - i)))
  rwa [List.length_range'] at this

theorem mem_conversionLines_iff : k ∈ conversionLines lookahead ls i ↔
    InWindow lookahead ls i k ∧ ∃ line ∈ ls[k]?, (argumentType? line).isSome := by
  have hrange : k ∈ List.range' i (min lookahead (ls.length - i)) ↔ InWindow lookahead ls i k := by
    rw [List.mem_range'_1, InWindow]
    omega
  rw [conversionLines, List.mem_filter, hrange, Option.any_eq_true]
  rfl

/-- The arguments of a window are converted on these lines, one on each. -/
theorem forall₂_conversionLines (lookahead : Nat) (ls : List (List Char)) (i : Nat) :
    List.Forall₂ (fun k type => ∃ line ∈ ls[k]?, argumentType? line = some type)
      (conversionLines lookahead ls i) ((window lookahead ls i).filterMap argumentType?) := by
  induction lookahead generalizing i with
  | zero =>
    rw [window_zero, conversionLines, Nat.zero_min]
    exact .nil
  | succ lookahead ih =>
    rcases Nat.lt_or_ge i ls.length with hi | hi
    · have hl : ls[i]? = some ls[i] := List.getElem?_eq_getElem hi
      have hcount : min (lookahead + 1) (ls.length - i) =
          min lookahead (ls.length - (i + 1)) + 1 := by omega
      rw [window_succ lookahead hi, conversionLines, hcount, List.range'_succ, List.filter_cons, hl,
        Option.any_some, List.filterMap_cons]
      cases hconverted : argumentType? ls[i] with
      | none => exact ih (i + 1)
      | some type => exact .cons ⟨ls[i], hl, hconverted⟩ (ih (i + 1))
    · rw [window_of_length_le _ hi, conversionLines, Nat.sub_eq_zero_of_le hi, Nat.min_zero]
      exact .nil

end

/-! ## The descriptor -/

/-- What a descriptor says of a comparison on line `i`. -/
structure Describes (settings : Settings) (ls : List (List Char)) (i : Nat)
    (comparison : Comparison) (c : Command) : Prop where
  /-- The name decides the category, but for a setting that is compared in no block. -/
  category : c.category = .ofName c.name ∨
    (c.category = .config ∧ comparison.subject = .config ∧ ¬ ∃ b, InBlock ls i b)
  /-- A setting that is compared in a block has the block's word in front and its category. -/
  block : comparison.subject = .config → ∀ b, InBlock ls i b →
    c.name = b.word ++ comparison.keyword ∧ c.category = b.category
  /-- The description is the catalog's text for the name, and a general one if there is none. -/
  description : settings.catalog.Lists c.name c.description ∨
    ((∀ e ∈ settings.catalog.descriptions, e.1 ≠ c.name) ∧
      c.description = "Execute " ++ c.name ++ " command")
  /-- There are no more arguments than lines in the window. -/
  argumentCount : c.arguments.length ≤ min settings.lookahead (ls.length - i)
  /-- The arguments are those converted in the window, one on each line that converts, in order. -/
  arguments : ∃ places : List Nat, places.Pairwise (· < ·) ∧
    (∀ k, k ∈ places ↔ InWindow settings.lookahead ls i k ∧
      ∃ line ∈ ls[k]?, (argumentType? line).isSome) ∧
    List.Forall₂ (fun k a => a.name = "value" ∧ ∃ line ∈ ls[k]?, argumentType? line = some a.type)
      places c.arguments
  /-- A command with arguments takes one. -/
  takesArgument : c.arguments ≠ [] → c.takesArgument
  /-- A command without takes one exactly if its literal ends in white space. -/
  takesArgument_iff : c.arguments = [] →
    (c.takesArgument ↔ ∃ last ∈ comparison.literal.getLast?, isBlank last)
  /-- There is no reply format exactly if no line of the window writes a reply. -/
  replyFormat_none : c.replyFormat = none ↔
    ∀ k, InWindow settings.lookahead ls i k → ∀ line ∈ ls[k]?, replyTemplate? line = none
  /-- The reply format is that of the first reply written in the window. -/
  replyFormat_first : ∀ k template, InWindow settings.lookahead ls i k →
    (∃ line ∈ ls[k]?, replyTemplate? line = some template) →
    (∀ j, i ≤ j → j < k → ∀ line ∈ ls[j]?, replyTemplate? line = none) →
    c.replyFormat = replyFormat (some (String.ofList template))

section
variable (catalog : Catalog) (context : Context) (comparison : Comparison)

theorem category_describe (window : List (List Char)) :
    (describe catalog context comparison window).category =
        .ofName (describe catalog context comparison window).name ∨
      ((describe catalog context comparison window).category = .config ∧
        comparison.subject = .config ∧ context.block = none) := by
  obtain ⟨hname, hcategory⟩ := describe_named catalog context comparison window
  rw [hname, hcategory]
  obtain ⟨subject, literal, declaredLength⟩ := comparison
  cases subject with
  | command => exact .inl rfl
  | config =>
    cases hb : context.block with
    | none => exact .inr ⟨rfl, rfl, rfl⟩
    | some b => exact .inl (ofName_word_append b _).symm

theorem arguments_describe (lookahead : Nat) (ls : List (List Char)) (i : Nat) :
    List.Forall₂ (fun k a => a.name = "value" ∧ ∃ line ∈ ls[k]?, argumentType? line = some a.type)
      (conversionLines lookahead ls i)
      (describe catalog context comparison (window lookahead ls i)).arguments := by
  rw [describe, List.forall₂_map_right_iff]
  exact (forall₂_conversionLines lookahead ls i).imp fun k type h => ⟨rfl, h⟩

theorem takesArgument_describe_iff (window : List (List Char)) :
    (describe catalog context comparison window).takesArgument ↔
      (∃ last ∈ comparison.literal.getLast?, isBlank last) ∨
        (describe catalog context comparison window).arguments ≠ [] := by
  rw [describe, Bool.or_eq_true, Comparison.takesArgument, endsInBlank, Option.any_eq_true,
    Bool.not_eq_true', List.isEmpty_eq_false_iff]
  rfl

theorem replyFormat_describe_eq_none_iff (lookahead : Nat) (ls : List (List Char)) (i : Nat) :
    (describe catalog context comparison (window lookahead ls i)).replyFormat = none ↔
      ∀ k, InWindow lookahead ls i k → ∀ line ∈ ls[k]?, replyTemplate? line = none := by
  rw [describe, replyFormat_window, List.findSome?_eq_none_iff]
  simp only [mem_window_iff, format?_eq_none_iff]
  constructor
  · intro h k hk line hl
    exact h line ⟨k, hk, hl⟩
  · rintro h line ⟨k, hk, hl⟩
    exact h k hk line hl

end

variable {settings : Settings} {ls : List (List Char)} {i : Nat} {c : Command}

/-- Each line that yields a descriptor yields one that says all this. -/
theorem describes_of_descriptorAt? (h : descriptorAt? settings .initial ls i = some c) :
    ∃ line comparison, ls[i]? = some line ∧ Comparison.first? line = some comparison ∧
      Describes settings ls i comparison c := by
  obtain ⟨line, comparison, hl, hcomparison, rfl⟩ := exists_of_descriptorAt? h
  have hblock : ∀ b, _ ↔ InBlock ls i b := fun b => block_enter_iff hl
  have harguments := arguments_describe settings.catalog
    ((Context.initial.passAll (ls.take i)).enter line) comparison settings.lookahead ls i
  refine ⟨line, comparison, hl, hcomparison, ?_⟩
  exact {
    category := by
      refine (category_describe settings.catalog _ comparison _).imp_right ?_
      rintro ⟨hconfig, hsubject, hnone⟩
      refine ⟨hconfig, hsubject, fun ⟨b, hb⟩ => ?_⟩
      rw [← hblock b, hnone] at hb
      cases hb
    block := by
      intro hsubject b hb
      obtain ⟨hname, hcategory⟩ := describe_named settings.catalog
        ((Context.initial.passAll (ls.take i)).enter line) comparison
        (window settings.lookahead ls i)
      rw [hname, hcategory, (hblock b).2 hb, nameAndCategory_setting hsubject b]
      exact ⟨rfl, rfl⟩
    description := settings.catalog.describe_cases _
    argumentCount := harguments.length_eq ▸ length_conversionLines_le settings.lookahead ls i
    arguments := ⟨_, sorted_conversionLines settings.lookahead ls i,
      fun k => mem_conversionLines_iff, harguments⟩
    takesArgument := fun hne => (takesArgument_describe_iff _ _ comparison _).2 (.inr hne)
    takesArgument_iff := fun hnil =>
      (takesArgument_describe_iff _ _ comparison _).trans (or_iff_left (not_not.2 hnil))
    replyFormat_none := replyFormat_describe_eq_none_iff _ _ comparison settings.lookahead ls i
    replyFormat_first := by
      rintro k template hk ⟨line, hl, ht⟩ hfirst
      rw [describe, findSome?_window hk hl ht hfirst, Option.map_some] }

/-- **Descriptors are consistent.** Each command of a dispatcher says what the line of its first
match, the block around it, the window that starts with it and the catalog say. -/
theorem extract_consistent (settings : Settings) (source : String) :
    ∀ c ∈ extract settings source,
      (∃ i, FirstMatch settings (lines source.toList) i c) ∧
      ∀ i, FirstMatch settings (lines source.toList) i c →
        ∃ line comparison, (lines source.toList)[i]? = some line ∧
          Comparison.first? line = some comparison ∧
          Describes settings (lines source.toList) i comparison c :=
  fun _ hc => ⟨mem_extract_iff.1 hc, fun _ hi => describes_of_descriptorAt? hi.1⟩

/-- A setting that is written, with a reply on the last line of its window. -/
def writtenSetting : String := "SET commands\nmemcmp(config,\"a \",2)atoi(\nstrcpy(reply,\"%d\")"

/-- What is known about it beforehand: two descriptions. -/
def writtenCatalog : Catalog := ⟨[("set a", "x"), ("set a", "y")], []⟩

/-- The command has the later description, an argument and the reply. -/
theorem written_setting_consistent :
    ∃ i line comparison, (lines writtenSetting.toList)[i]? = some line ∧
      Comparison.first? line = some comparison ∧
      Describes ⟨2, writtenCatalog⟩ (lines writtenSetting.toList) i comparison
        ⟨"set a", .set, [⟨"value", .int⟩], some "\x7bint\x7d", "y", false, true⟩ := by
  have hc : (⟨"set a", .set, [⟨"value", .int⟩], some "\x7bint\x7d", "y", false, true⟩ : Command) ∈
      extract ⟨2, writtenCatalog⟩ writtenSetting := by decide +kernel
  obtain ⟨⟨i, hi⟩, h⟩ := extract_consistent ⟨2, writtenCatalog⟩ writtenSetting _ hc
  exact ⟨i, h i hi⟩

end Dispatcher

end CliParity
