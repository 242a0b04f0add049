import CliParity.Proofs.Dispatcher.Alike
import CliParity.Proofs.Dispatcher.Block
import CliParity.Proofs.Dispatcher.Comparison
import CliParity.Proofs.Text.Lines

/-!
# Lines that may stand for one another

Two lines are `Interchangeable` if no dispatcher has other commands with the one in the place of the
other. Lines that act alike are (`ActsAlike.interchangeable`). Conversely the commands show what a
line with a comparison does: its own descriptor shows the reply format, and that of a probe behind
it, a comparison of a setting with a name that is long enough to be new, shows the block
(`Interchangeable.shown`).
-/

set_option autoImplicit false

namespace CliParity.Dispatcher

open Text

/-- In every dispatcher, the commands are the same with `b` for a line `a`. -/
def Interchangeable (a b : List Char) : Prop :=
  ∀ (settings : Settings) (source source' : String) (i : Nat),
    (lines source.toList)[i]? = some a → lines source'.toList = (lines source.toList).set i b →
      extract settings source' = extract settings source

variable {a b : List Char}

theorem forall₂_set {ls : List (List Char)} {i : Nat} (h : ActsAlike a b)
    (hl : ls[i]? = some a) : List.Forall₂ ActsAlike ls (ls.set i b) := by
  induction ls generalizing i with
  | nil => exact .nil
  | cons line ls ih =>
    cases i with
    | zero =>
      obtain rfl : line = a := Option.some.inj hl
      exact .cons h (List.forall₂_same.2 fun line _ => .refl line)
    | succ i => exact .cons (.refl line) (ih hl)

theorem ActsAlike.interchangeable (h : ActsAlike a b) : Interchangeable a b := by
  intro settings source source' i hl hs
  rw [extract, extract, hs, descriptors_congr (forall₂_set h hl) settings]

/-! ## Probes -/

/-- A probe compares a setting with `n + 1` times the letter `x`. -/
def probeParts (n : Nat) : Comparison.Parts where
  subject := .config
  literal := List.replicate (n + 1) 'x'
  digits := ['1']
  literal_ne_nil := List.cons_ne_nil _ _
  quote_not_mem := by simp
  digits_ne_nil := List.cons_ne_nil _ _
  all_isDigit := by decide

def probe (n : Nat) : List Char := (probeParts n).text .tight

variable {n : Nat} {c : Char}

/-- The characters of a probe. -/
def probeChars : List Char := "memcmp(config,\"x\",1)".toList

theorem mem_of_mem_probe (h : c ∈ probe n) : c ∈ probeChars := by
  simp only [probe, Comparison.Parts.text, Comparison.Parts.front_eq, Comparison.Parts.back,
    Comparison.Spacing.tight, Blanks.none, probeParts, Subject.variableName, List.mem_append,
    List.mem_cons, List.not_mem_nil, or_false, false_or, List.mem_replicate] at h
  have hname : List.Sublist "memcmp".toList probeChars := by decide
  have hvariable : List.Sublist "config".toList probeChars := by decide
  rcases h with (h | rfl | h | rfl) | rfl | ⟨-, rfl⟩ | rfl | rfl | rfl | rfl
  · exact hname.subset h
  · decide
  · exact hvariable.subset h
  all_goals decide

theorem contains_probe {p : List Char} (hp : p.all probeChars.contains = false) :
    contains (probe n) p = false := by
  rw [← Bool.not_eq_true, contains_iff]
  intro h
  obtain ⟨c, hc, hfar⟩ := List.all_eq_false.1 hp
  exact hfar (List.contains_iff_mem.2 (mem_of_mem_probe (h.subset hc)))

theorem first?_probe : Comparison.first? (probe n) = some (probeParts n).comparison := by
  have hread := Comparison.read?_text (probeParts n) .tight []
  rw [List.append_nil] at hread
  exact firstMatch?_of_read (List.cons_ne_nil _ _) hread

/-- A probe leaves the block as it is. -/
theorem blockAt_probe (block : Option Block) : Context.blockAt block (probe n) = block := by
  have hopens : ∀ block : Block, block.isOpenedBy (probe n) = false := by
    intro block
    cases block <;> simp (disch := decide) only [Block.isOpenedBy, Block.openings, List.any_cons,
      List.any_nil, contains_probe, Bool.or_self]
  have hleaves : ∀ word, leavesBlock word (probe n) = false := by
    intro word
    rw [leavesBlock, contains_probe (by decide), Bool.false_and]
  cases block <;> simp [Context.blockAt, hopens, hleaves]

theorem block_enter_probe (block : Option Block) (line : List Char) :
    ((Context.pass ⟨block, false⟩ line).enter (probe n)).block = Context.blockAt block line := by
  rw [Context.enter, blockAt_probe, Context.block_pass, Context.enter]

/-! ## Names -/

theorem length_trim_le (s : List Char) : (trim s).length ≤ s.length := by
  have hstart : (trimStart s).length ≤ s.length := (List.dropWhile_sublist isBlank).length_le
  have hend : (trimEnd (trimStart s)).length ≤ (trimStart s).length := by
    rw [trimEnd, List.length_reverse]
    exact (List.dropWhile_sublist isBlank).length_le.trans (by simp)
  exact hend.trans hstart

theorem length_word (block : Block) : block.word.length = 4 := by
  cases block <;> rfl

theorem length_name_le (block : Option Block) (comparison : Comparison) :
    (nameAndCategory block comparison).1.length ≤ comparison.literal.length + 4 := by
  obtain ⟨subject, literal, declaredLength⟩ := comparison
  have htrim := length_trim_le literal
  cases subject <;> cases block <;>
    simp only [nameAndCategory, String.length_append, String.length_ofList, length_word] <;> omega

theorem trim_probe (n : Nat) : trim (probeParts n).literal = List.replicate (n + 1) 'x' := by
  have hstart : trimStart (List.replicate (n + 1) 'x') = List.replicate (n + 1) 'x' := by
    rw [trimStart, List.replicate_succ, List.dropWhile_cons]
    rfl
  have hend : trimEnd (List.replicate (n + 1) 'x') = List.replicate (n + 1) 'x' := by
    rw [trimEnd, List.reverse_replicate, ← trimStart, hstart, List.reverse_replicate]
  exact (congrArg trimEnd hstart).trans hend

theorem lt_length_name_probe (block : Option Block) :
    n < (nameAndCategory block (probeParts n).comparison).1.length := by
  have hkeyword : trim (probeParts n).comparison.literal = List.replicate (n + 1) 'x' :=
    trim_probe n
  have hsubject : (probeParts n).comparison.subject = .config := rfl
  cases block <;> simp only [nameAndCategory, hkeyword, hsubject, String.length_append,
    String.length_ofList, List.length_replicate] <;> omega

/-- The category of a setting tells the block. -/
theorem category_probe (block block' : Option Block)
    (h : (nameAndCategory block (probeParts n).comparison).2 =
      (nameAndCategory block' (probeParts n).comparison).2) : block = block' := by
  rcases block with - | (- | -) <;> rcases block' with - | (- | -) <;>
    first | rfl | cases h

/-! ## A line between an opening and a probe -/

/-- Lines that bring a scan into the block. -/
def openers : Option Block → List (List Char)
  | none => []
  | some .get => ["GET commands".toList]
  | some .set => ["SET commands".toList]

theorem descriptors_openers (settings : Settings) (block : Option Block) (ls : List (List Char)) :
    descriptors settings .initial (openers block ++ ls) =
      descriptors settings ⟨block, false⟩ ls := by
  rcases block with - | (- | -)
  · rfl
  · rfl
  · rfl

/-- A dispatcher with the line between an opening and a probe. -/
def probed (block : Option Block) (line : List Char) (n : Nat) : String :=
  String.ofList (['\n'].intercalate (openers block ++ [line, probe n]))

theorem lines_probed (block : Option Block) (ha : '\n' ∉ a) (n : Nat) :
    lines (probed block a n).toList = openers block ++ [a, probe n] := by
  have hprobe : '\n' ∉ probe n := fun h => absurd (mem_of_mem_probe h) (by decide)
  have hopeners : ∀ l ∈ openers block, '\n' ∉ l := by
    rcases block with - | (- | -) <;> decide
  rw [probed, String.toList_ofList, lines_intercalate (by simp), flatMap_lines_of_not_mem]
  intro l hl
  simp only [List.mem_append, List.mem_cons, List.not_mem_nil, or_false] at hl
  rcases hl with hl | rfl | rfl
  · exact hopeners l hl
  · exact ha
  · exact hprobe

/-- What a scan that looks no line ahead finds on the line and on the probe. -/
theorem extract_probed {comparison : Comparison} (block : Option Block) (ha : '\n' ∉ a)
    (hc : Comparison.first? a = some comparison) (hn : comparison.literal.length + 4 ≤ n) :
    extract ⟨1, ⟨[], []⟩⟩ (probed block a n) =
      [describe ⟨[], []⟩ (Context.enter ⟨block, false⟩ a) comparison [a],
        describe ⟨[], []⟩ ((Context.pass ⟨block, false⟩ a).enter (probe n))
          (probeParts n).comparison [probe n]] := by
  have hname : (nameAndCategory (Context.enter ⟨block, false⟩ a).block comparison).1 ≠
      (nameAndCategory ((Context.pass ⟨block, false⟩ a).enter (probe n)).block
        (probeParts n).comparison).1 := by
    intro he
    have hle := length_name_le (Context.enter ⟨block, false⟩ a).block comparison
    have hlt := lt_length_name_probe (n := n)
      ((Context.pass ⟨block, false⟩ a).enter (probe n)).block
    rw [← he] at hlt
    omega
  have hfirst : descriptors ⟨1, ⟨[], []⟩⟩ ⟨block, false⟩ [a, probe n] =
      [describe ⟨[], []⟩ (Context.enter ⟨block, false⟩ a) comparison [a],
        describe ⟨[], []⟩ ((Context.pass ⟨block, false⟩ a).enter (probe n))
          (probeParts n).comparison [probe n]] := by
    rw [descriptors, descriptors, descriptors, hc, first?_probe]
    rfl
  have hnew : ∀ c d : Command, d.name ≠ c.name → firstOfEachName [] [c, d] = [c, d] := by
    intro c d hne
    simp [firstOfEachName, hne]
  rw [extract, lines_probed block ha, descriptors_openers, hfirst, hnew _ _ hname.symm]

/-- **What the commands show of a line.** Lines with the same comparison that are interchangeable do
the same to the block and show the same reply format. -/
theorem Interchangeable.shown {comparison : Comparison} (h : Interchangeable a b) (ha : '\n' ∉ a)
    (hb : '\n' ∉ b) (hca : Comparison.first? a = some comparison)
    (hcb : Comparison.first? b = some comparison) :
    (∀ block, Context.blockAt block a = Context.blockAt block b) ∧ format? a = format? b := by
  have hfound (block : Option Block) :
      extract ⟨1, ⟨[], []⟩⟩ (probed block b (comparison.literal.length + 4)) =
        extract ⟨1, ⟨[], []⟩⟩ (probed block a (comparison.literal.length + 4)) := by
    refine h _ _ _ (openers block).length ?_ ?_
    · rw [lines_probed block ha, List.getElem?_append_right (Nat.le_refl _), Nat.sub_self]
      rfl
    · rw [lines_probed block ha, lines_probed block hb,
        List.set_append_right _ _ (Nat.le_refl _), Nat.sub_self]
      rfl
  simp only [extract_probed _ ha hca (Nat.le_refl _), extract_probed _ hb hcb (Nat.le_refl _),
    List.cons.injEq, and_true] at hfound
  constructor
  · intro block
    have hcategory := congrArg Command.category (hfound block).2
    have hblock := category_probe _ _ hcategory
    rw [block_enter_probe, block_enter_probe] at hblock
    exact hblock.symm
  · have hformat := congrArg Command.replyFormat (hfound none).1
    simpa [describe, format?] using hformat.symm

end CliParity.Dispatcher
