import CliParity.Proofs.Dispatcher.Names
import Mathlib.Data.List.Basic
import Mathlib.Data.Nat.Find

/-!
# What each line of a dispatcher yields

`descriptorAt? settings context ls i` is the descriptor that line `i` yields, told from the lines
alone: from its comparison, from the context that the lines in front leave, and from the window of
lines that starts with it. A scan finds the descriptors of all lines (`descriptors_eq`) and keeps
those of a name that no line in front has (`firstOfEachName_filterMap`). So the commands of a
dispatcher are the first matches of their names (`mem_extract_iff`).
-/

set_option autoImplicit false

namespace CliParity.Dispatcher

open Text

/-! ## Lines -/

/-- The context once a line is done. -/
def Context.pass (context : Context) (line : List Char) : Context :=
  (context.enter line).leave line

/-- The context once some lines are done. -/
def Context.passAll (context : Context) (ls : List (List Char)) : Context :=
  ls.foldl Context.pass context

/-- The lines that are searched for the reply and the arguments of a comparison on line `i`. -/
def window (lookahead : Nat) (ls : List (List Char)) (i : Nat) : List (List Char) :=
  (ls.take (min (i + lookahead) ls.length)).drop i

/-- The descriptor that line `i` yields to a scan that starts in a context. -/
def descriptorAt? (settings : Settings) (context : Context) (ls : List (List Char)) (i : Nat) :
    Option Command :=
  ls[i]?.bind fun line => (Comparison.first? line).map fun comparison =>
    describe settings.catalog ((context.passAll (ls.take i)).enter line) comparison
      (window settings.lookahead ls i)

/-- The name of the command compared on line `i`. -/
def nameAt? (settings : Settings) (ls : List (List Char)) (i : Nat) : Option String :=
  (descriptorAt? settings .initial ls i).map Command.name

/-- Line `i` yields this descriptor, and no line in front yields one of its name. -/
def FirstMatch (settings : Settings) (ls : List (List Char)) (i : Nat) (c : Command) : Prop :=
  descriptorAt? settings .initial ls i = some c ∧ ∀ j < i, nameAt? settings ls j ≠ some c.name

section
variable {settings : Settings} {context : Context} {line : List Char} {ls : List (List Char)}

theorem passAll_take_succ (context : Context) {i : Nat} (hl : ls[i]? = some line) :
    context.passAll (ls.take (i + 1)) = (context.passAll (ls.take i)).pass line := by
  rw [List.take_add_one, hl, Context.passAll, List.foldl_append]
  rfl

theorem window_eq (lookahead : Nat) (ls : List (List Char)) (i : Nat) :
    window lookahead ls i = (ls.drop i).take lookahead := by
  rw [window, List.drop_take, List.take_eq_take_iff, List.length_drop]
  omega

theorem descriptorAt?_zero : descriptorAt? settings context (line :: ls) 0 =
    (Comparison.first? line).map fun comparison => describe settings.catalog (context.enter line)
      comparison ((line :: ls).take settings.lookahead) := by
  rw [descriptorAt?, window_eq]
  rfl

theorem descriptorAt?_succ (i : Nat) : descriptorAt? settings context (line :: ls) (i + 1) =
    descriptorAt? settings (context.pass line) ls i := by
  rw [descriptorAt?, window_eq, descriptorAt?, window_eq]
  rfl

/-- A descriptor is that of the comparison on its line. -/
theorem exists_of_descriptorAt? {i : Nat} {c : Command}
    (h : descriptorAt? settings context ls i = some c) :
    ∃ line comparison, ls[i]? = some line ∧ Comparison.first? line = some comparison ∧
      c = describe settings.catalog ((context.passAll (ls.take i)).enter line) comparison
        (window settings.lookahead ls i) := by
  obtain ⟨line, hl, hc⟩ := Option.bind_eq_some_iff.1 h
  obtain ⟨comparison, hcomparison, hc⟩ := Option.map_eq_some_iff.1 hc
  exact ⟨line, comparison, hl, hcomparison, hc.symm⟩

theorem lt_of_descriptorAt? {i : Nat} {c : Command}
    (h : descriptorAt? settings context ls i = some c) : i < ls.length := by
  obtain ⟨line, -, hl, -⟩ := exists_of_descriptorAt? h
  exact (List.getElem?_eq_some_iff.1 hl).1

theorem descriptors_eq (settings : Settings) (context : Context) (ls : List (List Char)) :
    descriptors settings context ls =
      (List.range ls.length).filterMap (descriptorAt? settings context ls) := by
  induction ls generalizing context with
  | nil => rfl
  | cons line ls ih =>
    have hs : descriptorAt? settings context (line :: ls) ∘ Nat.succ =
        descriptorAt? settings (context.pass line) ls := funext descriptorAt?_succ
    rw [List.length_cons, List.range_succ_eq_map, List.filterMap_cons, List.filterMap_map, hs,
      ← ih, descriptorAt?_zero, descriptors]
    cases Comparison.first? line <;> rfl

end

/-! ## The first of each name -/

/-- Only the members of `seen` matter. -/
theorem firstOfEachName_congr {seen seen' : List String} (h : ∀ n, n ∈ seen ↔ n ∈ seen')
    (commands : List Command) :
    firstOfEachName seen commands = firstOfEachName seen' commands := by
  induction commands generalizing seen seen' with
  | nil => rfl
  | cons c commands ih =>
    have hc : ∀ n, n ∈ c.name :: seen ↔ n ∈ c.name :: seen' := by simp [h]
    rw [firstOfEachName, firstOfEachName, ih h, ih hc]
    simp only [h]

/-- What comes later is kept if its name is not in front. -/
theorem firstOfEachName_append (seen : List String) (commands later : List Command) :
    firstOfEachName seen (commands ++ later) = firstOfEachName seen commands ++
      firstOfEachName (commands.map Command.name ++ seen) later := by
  induction commands generalizing seen with
  | nil => rfl
  | cons c commands ih =>
    rw [List.cons_append, firstOfEachName, firstOfEachName]
    by_cases hc : c.name ∈ seen
    · have hs : ∀ n, n ∈ commands.map Command.name ++ seen ↔
          n ∈ (c :: commands).map Command.name ++ seen := by grind
      rw [if_pos hc, if_pos hc, ih, firstOfEachName_congr hs]
    · have hs : ∀ n, n ∈ commands.map Command.name ++ c.name :: seen ↔
          n ∈ (c :: commands).map Command.name ++ seen := by grind
      rw [if_neg hc, if_neg hc, ih, firstOfEachName_congr hs, List.cons_append]

theorem mem_names_filterMap_range {f : Nat → Option Command} {n : Nat} {name : String} :
    name ∈ ((List.range n).filterMap f).map Command.name ↔
      ∃ j < n, (f j).map Command.name = some name := by
  simp only [List.mem_map, List.mem_filterMap, List.mem_range, Option.map_eq_some_iff]
  constructor
  · rintro ⟨c, ⟨j, hj, hc⟩, hn⟩
    exact ⟨j, hj, c, hc, hn⟩
  · rintro ⟨j, hj, c, hc, hn⟩
    exact ⟨c, ⟨j, hj, hc⟩, hn⟩

/-- Of the commands at `0`, …, `n - 1`, those are kept whose name is at no place in front. -/
theorem firstOfEachName_filterMap (f : Nat → Option Command) (n : Nat) :
    firstOfEachName [] ((List.range n).filterMap f) = (List.range n).filterMap fun i =>
      (f i).filter fun c => ∀ j < i, (f j).map Command.name ≠ some c.name := by
  induction n with
  | zero => rfl
  | succ n ih =>
    rw [List.range_succ, List.filterMap_append, firstOfEachName_append, ih, List.filterMap_append,
      List.append_nil]
    -- the last place counts if it has a command, and its name is at none of those in front
    refine congrArg _ ?_
    cases hf : f n with
    | none => simp [hf, firstOfEachName]
    | some c =>
      have hm : c.name ∈ ((List.range n).filterMap f).map Command.name ↔
          ¬ ∀ j < n, (f j).map Command.name ≠ some c.name := by
        rw [mem_names_filterMap_range]
        simp
      simp only [List.filterMap_cons, List.filterMap_nil, hf, firstOfEachName, hm,
        Option.filter_some, decide_eq_true_eq]
      by_cases hn : ∀ j < n, (f j).map Command.name ≠ some c.name
      · rw [if_neg (not_not.2 hn), if_pos hn]
      · rw [if_pos hn, if_neg hn]

theorem extract_eq (settings : Settings) (source : String) :
    extract settings source = (List.range (lines source.toList).length).filterMap fun i =>
      (descriptorAt? settings .initial (lines source.toList) i).filter fun c =>
        ∀ j < i, nameAt? settings (lines source.toList) j ≠ some c.name := by
  rw [extract, descriptors_eq, firstOfEachName_filterMap]
  rfl

theorem mem_extract_iff {settings : Settings} {source : String} {c : Command} :
    c ∈ extract settings source ↔ ∃ i, FirstMatch settings (lines source.toList) i c := by
  rw [extract_eq, List.mem_filterMap]
  simp only [List.mem_range, Option.filter_eq_some_iff, decide_eq_true_eq]
  exact ⟨fun ⟨i, _, h⟩ => ⟨i, h⟩, fun ⟨i, h⟩ => ⟨i, lt_of_descriptorAt? h.1, h⟩⟩

/-- Each name that is compared has a first match. -/
theorem exists_firstMatch {settings : Settings} {ls : List (List Char)} {i : Nat} {c : Command}
    (h : descriptorAt? settings .initial ls i = some c) :
    ∃ j d, FirstMatch settings ls j d ∧ d.name = c.name := by
  have hex : ∃ j, nameAt? settings ls j = some c.name := ⟨i, by rw [nameAt?, h]; rfl⟩
  obtain ⟨d, hd, hn⟩ := Option.map_eq_some_iff.1 (Nat.find_spec hex)
  exact ⟨Nat.find hex, d, ⟨hd, fun j hj => hn ▸ Nat.find_min hex hj⟩, hn⟩

/-- **First matches, and all of them.** The commands of a dispatcher are what its lines yield, in
order, less what repeats a name of a line in front. So no name is there twice, each name that is
compared is there, and each descriptor is that of the first match of its name. -/
theorem extract_first_matches (settings : Settings) (source : String) :
    (extract settings source = (List.range (lines source.toList).length).filterMap fun i =>
      (descriptorAt? settings .initial (lines source.toList) i).filter fun c =>
        ∀ j < i, nameAt? settings (lines source.toList) j ≠ some c.name) ∧
    ((extract settings source).map Command.name).Nodup ∧
    (∀ i c, descriptorAt? settings .initial (lines source.toList) i = some c →
      ∃ d ∈ extract settings source, d.name = c.name) ∧
    ∀ c ∈ extract settings source, ∃ i, FirstMatch settings (lines source.toList) i c := by
  refine ⟨extract_eq settings source, nodup_names_extract settings source, fun i c h => ?_,
    fun c => mem_extract_iff.1⟩
  obtain ⟨j, d, hd, hn⟩ := exists_firstMatch h
  exact ⟨d, mem_extract_iff.2 ⟨j, hd⟩, hn⟩

/-- The second of two comparisons with one literal, which has a reply, is dropped; its name is
there. -/
theorem extract_repeated_literal :
    ∃ d ∈ extract ⟨1, ⟨[], []⟩⟩
      "memcmp(command,\"a\",1)\nmemcmp(command,\"a\",1)strcpy(reply,\"x\")", d.name = "a" :=
  (extract_first_matches _ _).2.2.1 1
    ⟨"a", .other, [], some "x", "Execute a command", false, false⟩ (by decide +kernel)

end CliParity.Dispatcher
