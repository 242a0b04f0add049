import CliParity.Proofs.Dispatcher.Scan

/-!
# The block that a setting is compared in

The scan keeps the block of reads or writes that it is in. `InBlock ls i b` says this on the lines
alone: of the lines up to line `i`, the last that opens a block opens `b` (`LastOpening`), and no
line behind it leaves `b`. One line changes the two alike (`blockAt_eq_some_iff`, `inBlock_succ`),
so they agree on every line (`block_enter_iff`), and the block decides the name and the category of
a compared setting (`named_by_block`).
-/

set_option autoImplicit false

namespace CliParity.Dispatcher

open Text

/-- The block that a line opens, a read block if it opens both. -/
def openedBlock? (line : List Char) : Option Block :=
  if Block.get.isOpenedBy line then some .get
  else if Block.set.isOpenedBy line then some .set
  else none

/-- Line `j` is the last one up to line `i` that opens a block, and the block is `b`. -/
structure LastOpening (ls : List (List Char)) (i j : Nat) (b : Block) : Prop where
  le : j ≤ i
  opens : ∃ line ∈ ls[j]?, openedBlock? line = some b
  last : ∀ k, j < k → k ≤ i → ∀ line ∈ ls[k]?, openedBlock? line = none

/-- The last block that is opened up to line `i` is `b`, and no line behind its opening leaves
it. -/
def InBlock (ls : List (List Char)) (i : Nat) (b : Block) : Prop :=
  ∃ j, LastOpening ls i j b ∧ ∀ k, j < k → k ≤ i → ∀ line ∈ ls[k]?, ¬ leavesBlock b.word line

section
variable {ls : List (List Char)} {line : List Char} {i j : Nat} {b : Block}

/-! ## One line -/

theorem blockAt_eq_some_iff (block : Option Block) (line : List Char) :
    Context.blockAt block line = some b ↔ openedBlock? line = some b ∨
      (openedBlock? line = none ∧ block = some b ∧ ¬ leavesBlock b.word line) := by
  unfold Context.blockAt openedBlock?
  cases hg : Block.get.isOpenedBy line with
  | true => simp
  | false =>
    cases hs : Block.set.isOpenedBy line with
    | true => simp
    | false => simp [Option.filter_eq_some_iff]

/-- The line that opens a block is the last one to do so up to itself. -/
theorem inBlock_of_opens (hl : ls[i]? = some line) (ho : openedBlock? line = some b) :
    InBlock ls i b := by
  refine ⟨i, ⟨Nat.le_refl i, ⟨line, hl, ho⟩, ?_⟩, ?_⟩
  · intro k hik hki
    omega
  · intro k hik hki
    omega

/-- A line in a block that does not open it is behind its opening. -/
theorem LastOpening.lt_of_opens_none (hl : ls[i]? = some line) (ho : openedBlock? line = none)
    (h : LastOpening ls i j b) : j < i := by
  rcases Nat.lt_or_eq_of_le h.le with hj | rfl
  · exact hj
  · obtain ⟨line', hl', ho'⟩ := h.opens
    cases hl.symm.trans hl'
    simp [ho] at ho'

theorem inBlock_zero (hl : ls[0]? = some line) :
    InBlock ls 0 b ↔ openedBlock? line = some b := by
  constructor
  · rintro ⟨j, h, -⟩
    obtain ⟨line', hl', ho⟩ := h.opens
    obtain rfl : j = 0 := Nat.le_zero.1 h.le
    cases hl.symm.trans hl'
    exact ho
  · exact inBlock_of_opens hl

theorem inBlock_succ (hl : ls[i + 1]? = some line) :
    InBlock ls (i + 1) b ↔ openedBlock? line = some b ∨
      (openedBlock? line = none ∧ InBlock ls i b ∧ ¬ leavesBlock b.word line) := by
  constructor
  · rintro ⟨j, h, hleave⟩
    cases ho : openedBlock? line with
    | some b' =>
      -- the opening is this line, or else this line would be a later one
      left
      rcases Nat.lt_or_eq_of_le h.le with hj | rfl
      · have hn := h.last (i + 1) hj (Nat.le_refl _) line hl
        simp [ho] at hn
      · obtain ⟨line', hl', ho'⟩ := h.opens
        cases hl.symm.trans hl'
        exact ho.symm.trans ho'
    | none =>
      right
      have hj : j < i + 1 := LastOpening.lt_of_opens_none hl ho h
      refine ⟨rfl, ⟨j, ⟨by omega, h.opens, ?_⟩, ?_⟩, hleave (i + 1) hj (Nat.le_refl _) line hl⟩
      · intro k hjk hki
        exact h.last k hjk (by omega)
      · intro k hjk hki
        exact hleave k hjk (by omega)
  · rintro (ho | ⟨ho, ⟨j, h, hleave⟩, hl'⟩)
    · exact inBlock_of_opens hl ho
    · have hj := h.le
      refine ⟨j, ⟨by omega, h.opens, ?_⟩, ?_⟩
      · intro k hjk hki line' hk
        rcases Nat.lt_or_eq_of_le hki with hki | rfl
        · exact h.last k hjk (by omega) line' hk
        · cases hl.symm.trans hk
          exact ho
      · intro k hjk hki line' hk
        rcases Nat.lt_or_eq_of_le hki with hki | rfl
        · exact hleave k hjk (by omega) line' hk
        · cases hl.symm.trans hk
          exact hl'

/-! ## All lines -/

theorem Context.block_pass (context : Context) (line : List Char) :
    (context.pass line).block = (context.enter line).block := by
  unfold Context.pass Context.leave
  split <;> rfl

/-- The block on a line is the one that the line is in. -/
theorem block_enter_iff (hl : ls[i]? = some line) :
    ((Context.initial.passAll (ls.take i)).enter line).block = some b ↔ InBlock ls i b := by
  induction i generalizing line with
  | zero =>
    rw [inBlock_zero hl, Context.enter, blockAt_eq_some_iff]
    simp [Context.passAll, Context.initial]
  | succ i ih =>
    have hi : i < ls.length := by
      have := (List.getElem?_eq_some_iff.1 hl).1
      omega
    have hprev : ls[i]? = some ls[i] := List.getElem?_eq_getElem hi
    rw [inBlock_succ hl, Context.enter, blockAt_eq_some_iff, passAll_take_succ _ hprev,
      Context.block_pass, ih hprev]

end

/-! ## Names -/

/-- The compared literal without the white space around it. -/
def Comparison.keyword (comparison : Comparison) : String := String.ofList (trim comparison.literal)

theorem describe_named (catalog : Catalog) (context : Context) (comparison : Comparison)
    (window : List (List Char)) :
    (describe catalog context comparison window).name =
        (nameAndCategory context.block comparison).1 ∧
      (describe catalog context comparison window).category =
        (nameAndCategory context.block comparison).2 := ⟨rfl, rfl⟩

/-- **The block decides the name.** A scan yields the descriptors of the lines, one by one. A
setting that is compared in a block has the block's word in front of its name and the block's
category, and one that is compared in none has its bare name and the category of settings. A
comparison with the whole command line has its bare name in every block. -/
theorem named_by_block (settings : Settings) (source : String) {i : Nat} {line : List Char}
    {comparison : Comparison} (hl : (lines source.toList)[i]? = some line)
    (hc : Comparison.first? line = some comparison) :
    descriptors settings .initial (lines source.toList) =
      (List.range (lines source.toList).length).filterMap
        (descriptorAt? settings .initial (lines source.toList)) ∧
    ∃ c, descriptorAt? settings .initial (lines source.toList) i = some c ∧
      (comparison.subject = .config →
        (∀ b, InBlock (lines source.toList) i b →
          c.name = b.word ++ comparison.keyword ∧ c.category = b.category) ∧
        ((¬ ∃ b, InBlock (lines source.toList) i b) →
          c.name = comparison.keyword ∧ c.category = .config)) ∧
      (comparison.subject = .command →
        c.name = comparison.keyword ∧ c.category = .ofName comparison.keyword) := by
  refine ⟨descriptors_eq settings .initial (lines source.toList), ?_⟩
  have hblock : ∀ b, _ ↔ InBlock (lines source.toList) i b := fun b => block_enter_iff hl
  unfold descriptorAt?
  rw [hl, Option.bind_some, hc, Option.map_some]
  refine ⟨_, rfl, ?_⟩
  obtain ⟨hn, hk⟩ := describe_named settings.catalog
    ((Context.initial.passAll ((lines source.toList).take i)).enter line) comparison
    (window settings.lookahead (lines source.toList) i)
  rw [hn, hk]
  obtain ⟨subject, literal, declaredLength⟩ := comparison
  cases subject with
  | command =>
    exact ⟨nofun, fun _ => ⟨rfl, rfl⟩⟩
  | config =>
    refine ⟨fun _ => ⟨?_, ?_⟩, nofun⟩
    · intro b hb
      rw [(hblock b).2 hb]
      exact ⟨rfl, rfl⟩
    · intro hn
      have hnone : ((Context.initial.passAll ((lines source.toList).take i)).enter line).block
          = none := by
        rw [Option.eq_none_iff_forall_not_mem]
        intro b hb
        exact hn ⟨b, (hblock b).1 hb⟩
      rw [hnone]
      exact ⟨rfl, rfl⟩

/-- A branch in a block of writes that opens the block of reads. -/
def readsBehindWrites : String :=
  "// SET commands\n\x7d else if (memcmp(command, \"get \", 4)\nmemcmp(config, \"af \", 3)"

/-- The setting on the last line is one that is read. -/
theorem setting_in_reads_behind_writes :
    (lines readsBehindWrites.toList)[2]? = some "memcmp(config, \"af \", 3)".toList ∧
    InBlock (lines readsBehindWrites.toList) 2 .get ∧
    ∃ c, descriptorAt? .meshCore .initial (lines readsBehindWrites.toList) 2 = some c ∧
      c.name = "get af" ∧ c.category = .get := by
  have hl : (lines readsBehindWrites.toList)[2]? = some "memcmp(config, \"af \", 3)".toList := by
    decide +kernel
  have hc : Comparison.first? "memcmp(config, \"af \", 3)".toList =
      some ⟨.config, "af ".toList, some 3⟩ := by
    decide +kernel
  have hb : InBlock (lines readsBehindWrites.toList) 2 .get :=
    (block_enter_iff hl).1 (by decide +kernel)
  obtain ⟨-, c, hd, hconfig, -⟩ := named_by_block .meshCore readsBehindWrites hl hc
  obtain ⟨hn, hk⟩ := (hconfig rfl).1 .get hb
  have hname : Block.get.word ++ Comparison.keyword ⟨.config, "af ".toList, some 3⟩ = "get af" := by
    decide +kernel
  exact ⟨hl, hb, c, hd, hn.trans hname, hk⟩

end CliParity.Dispatcher
