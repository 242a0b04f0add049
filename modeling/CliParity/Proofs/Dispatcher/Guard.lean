import CliParity.Proofs.Dispatcher.Scan

/-!
# Where a command is for the serial console only

The scan keeps one flag for a guard that was seen. `GuardReaches ls j i` says on the lines alone
that a guard on line `j` is still in force on line `i`, and the flag is set on a line if and only if
some guard reaches it (`serialOnly_enter_iff`): a guard reaches its own line, whatever branch starts
there, and no line behind one that starts another branch.
-/

set_option autoImplicit false

namespace CliParity.Dispatcher

open Text

/-- Line `j` has a guard, and no line from there up to line `i`, itself left out, starts another
branch. -/
def GuardReaches (ls : List (List Char)) (j i : Nat) : Prop :=
  (∃ line ∈ ls[j]?, guardsSerial line) ∧
    ∀ k, j ≤ k → k < i → ∀ line ∈ ls[k]?, ¬ startsElse line

section
variable {ls : List (List Char)} {line : List Char} {i j : Nat}

theorem guardReaches_self (hl : ls[i]? = some line) :
    GuardReaches ls i i ↔ guardsSerial line := by
  constructor
  · rintro ⟨⟨line', hl', hg⟩, -⟩
    rwa [Option.some.inj (hl.symm.trans hl')]
  · exact fun hg => ⟨⟨line, hl, hg⟩, fun k hk hk' => absurd hk (Nat.not_le_of_lt hk')⟩

theorem guardReaches_succ (hl : ls[i]? = some line) (hj : j ≤ i) :
    GuardReaches ls j (i + 1) ↔ GuardReaches ls j i ∧ ¬ startsElse line := by
  constructor
  · rintro ⟨hg, hk⟩
    exact ⟨⟨hg, fun k hjk hki => hk k hjk (Nat.lt_succ_of_lt hki)⟩,
      hk i hj (Nat.lt_succ_self i) line hl⟩
  · rintro ⟨⟨hg, hk⟩, he⟩
    refine ⟨hg, fun k hjk hki line' hl' => ?_⟩
    rcases Nat.lt_or_eq_of_le (Nat.le_of_lt_succ hki) with hki | rfl
    · exact hk k hjk hki line' hl'
    · rwa [← Option.some.inj (hl.symm.trans hl')]

/-! ## The flag -/

theorem Context.serialOnly_enter_iff (context : Context) (line : List Char) :
    (context.enter line).serialOnly ↔ context.serialOnly ∨ guardsSerial line := by
  rw [Context.enter, Bool.or_eq_true]

theorem Context.serialOnly_pass_iff (context : Context) (line : List Char) :
    (context.pass line).serialOnly ↔
      (context.serialOnly ∨ guardsSerial line) ∧ ¬ startsElse line := by
  rw [← context.serialOnly_enter_iff, Context.pass, Context.leave]
  split <;> simp_all

/-- The flag behind some lines: a guard on one of them reaches the line that follows. -/
theorem serialOnly_passAll_iff (hi : i ≤ ls.length) :
    (Context.initial.passAll (ls.take i)).serialOnly ↔ ∃ j < i, GuardReaches ls j i := by
  induction i with
  | zero => simp [Context.passAll, Context.initial]
  | succ i ih =>
    have hl : ls[i]? = some ls[i] := List.getElem?_eq_getElem hi
    rw [passAll_take_succ _ hl, Context.serialOnly_pass_iff, ih (Nat.le_of_succ_le hi),
      ← guardReaches_self hl, ← Nat.exists_lt_succ_right (p := fun j => GuardReaches ls j i),
      ← exists_and_right]
    refine exists_congr fun j => ?_
    rw [and_assoc]
    exact and_congr_right fun hj => (guardReaches_succ hl (Nat.le_of_lt_succ hj)).symm

/-- The flag on a line: some guard reaches it. -/
theorem serialOnly_enter_iff (hl : ls[i]? = some line) :
    ((Context.initial.passAll (ls.take i)).enter line).serialOnly ↔
      ∃ j ≤ i, GuardReaches ls j i := by
  have hi : i < ls.length := (List.getElem?_eq_some_iff.1 hl).1
  rw [Context.serialOnly_enter_iff, serialOnly_passAll_iff (Nat.le_of_lt hi),
    ← guardReaches_self hl, ← Nat.exists_lt_succ_right (p := fun j => GuardReaches ls j i)]
  simp only [Nat.lt_succ_iff]

end

/-! ## The commands -/

variable {settings : Settings} {ls : List (List Char)} {i : Nat} {c : Command}

theorem serialOnly_describe_iff (catalog : Catalog) (context : Context) (comparison : Comparison)
    (window : List (List Char)) :
    (describe catalog context comparison window).serialOnly ↔
      context.serialOnly ∨
        (describe catalog context comparison window).name ∈ catalog.serialOnly := by
  rw [← Catalog.isSerialOnly_iff]
  exact Bool.or_eq_true_iff

theorem serialOnly_descriptorAt?_iff (h : descriptorAt? settings .initial ls i = some c) :
    c.serialOnly ↔ c.name ∈ settings.catalog.serialOnly ∨ ∃ j ≤ i, GuardReaches ls j i := by
  obtain ⟨line, comparison, hl, -, rfl⟩ := exists_of_descriptorAt? h
  rw [serialOnly_describe_iff, serialOnly_enter_iff hl, or_comm]

/-- **Serial console only.** A command is for the serial console only if and only if the catalog
lists its name or a guard reaches the line of its first match. -/
theorem serialOnly_extract_iff (settings : Settings) (source : String) :
    ∀ c ∈ extract settings source,
      (∃ i, FirstMatch settings (lines source.toList) i c) ∧
      ∀ i, FirstMatch settings (lines source.toList) i c →
        (c.serialOnly ↔ c.name ∈ settings.catalog.serialOnly ∨
          ∃ j ≤ i, GuardReaches (lines source.toList) j i) :=
  fun _ hc => ⟨mem_extract_iff.1 hc, fun _ hi => serialOnly_descriptorAt?_iff hi.1⟩

/-- A guard in front of a line that starts another branch and has a comparison. -/
def guardedElse : String := "sender_timestamp==0\n\x7d else memcmp(command,\"a\",1)"

/-- The guard reaches that line, so the command is for the serial console only. -/
theorem guard_reaches_else_line :
    ∃ c ∈ extract ⟨1, ⟨[], []⟩⟩ guardedElse, ∃ i,
      FirstMatch ⟨1, ⟨[], []⟩⟩ (lines guardedElse.toList) i c ∧
        ∃ j ≤ i, GuardReaches (lines guardedElse.toList) j i := by
  have hc : ⟨"a", .other, [], none, "Execute a command", true, false⟩ ∈
      extract ⟨1, ⟨[], []⟩⟩ guardedElse := by decide +kernel
  obtain ⟨⟨i, hi⟩, h⟩ := serialOnly_extract_iff ⟨1, ⟨[], []⟩⟩ guardedElse _ hc
  exact ⟨_, hc, i, hi, ((h i hi).1 rfl).resolve_left (by decide)⟩

end CliParity.Dispatcher
