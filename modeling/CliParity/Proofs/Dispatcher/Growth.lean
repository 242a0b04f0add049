import CliParity.Proofs.Dispatcher.Scan
import CliParity.Proofs.Text.Lines
import Mathlib.Data.List.Forall2

/-!
# More of a dispatcher, seen further

A scan that looks further ahead, over a text with lines added at the end, finds the commands that it
found before, in the same places, and says no less about each: `Command.Extends` tells what it may
add. The window of a comparison is then a longer one that begins alike (`describe_extends`), so the
descriptors of the first lines are extended one by one (`exists_descriptors_append`), those that are
kept are of the same names (`firstOfEachName_extends`), and what the further lines yield comes
behind them (`extract_monotone`).
-/

set_option autoImplicit false

namespace CliParity

/-- The description `b` is of the same command as `a` and takes nothing back: there may be more
arguments, and a reply where none was known. -/
structure Command.Extends (a b : Command) : Prop where
  name : b.name = a.name
  category : b.category = a.category
  serialOnly : b.serialOnly = a.serialOnly
  description : b.description = a.description
  arguments : a.arguments <+: b.arguments
  replyFormat : ∀ format, a.replyFormat = some format → b.replyFormat = some format
  takesArgument : a.takesArgument → b.takesArgument

namespace Dispatcher

open Text

/-! ## One descriptor -/

/-- A longer window that begins alike tells more of the same. -/
theorem describe_extends {window window' : List (List Char)} (h : window <+: window')
    (catalog : Catalog) (context : Context) (comparison : Comparison) :
    (describe catalog context comparison window).Extends
      (describe catalog context comparison window') := by
  have harguments : (window.filterMap argumentType?).map Argument.inferred <+:
      (window'.filterMap argumentType?).map Argument.inferred := (h.filterMap _).map _
  refine ⟨rfl, rfl, rfl, rfl, harguments, fun format hf => ?_, fun ht => ?_⟩
  · obtain ⟨more, rfl⟩ := h
    simp only [describe, List.findSome?_append] at hf ⊢
    cases hr : window.findSome? replyTemplate? with
    | none =>
      rw [hr] at hf
      cases hf
    | some template => rwa [hr] at hf
  · simp only [describe, Bool.or_eq_true, Bool.not_eq_true', List.isEmpty_eq_false_iff] at ht ⊢
    exact ht.imp_right fun hne hnil => hne (List.prefix_nil.1 (hnil ▸ harguments))

/-! ## All descriptors -/

theorem take_prefix_take {lookahead lookahead' : Nat} (h : lookahead ≤ lookahead')
    (ls more : List (List Char)) : ls.take lookahead <+: (ls ++ more).take lookahead' := by
  rw [List.prefix_take_iff]
  refine ⟨(List.take_prefix _ _).trans (List.prefix_append ls more), ?_⟩
  rw [List.length_take]
  omega

/-- Lines behind add descriptors behind; a greater lookahead extends those in front. -/
theorem exists_descriptors_append {lookahead lookahead' : Nat} (h : lookahead ≤ lookahead')
    (catalog : Catalog) (context : Context) (ls more : List (List Char)) :
    ∃ front back, descriptors ⟨lookahead', catalog⟩ context (ls ++ more) = front ++ back ∧
      List.Forall₂ Command.Extends (descriptors ⟨lookahead, catalog⟩ context ls) front := by
  induction ls generalizing context with
  | nil => exact ⟨[], _, rfl, .nil⟩
  | cons line ls ih =>
    obtain ⟨front, back, he, hf⟩ := ih ((context.enter line).leave line)
    rw [List.cons_append, descriptors, descriptors, he]
    cases Comparison.first? line with
    | none => exact ⟨front, back, rfl, hf⟩
    | some comparison =>
      refine ⟨_ :: front, back, rfl, .cons ?_ hf⟩
      exact describe_extends (take_prefix_take h (line :: ls) more) catalog _ comparison

/-- What is kept goes by names only, which are the same. -/
theorem firstOfEachName_extends {commands commands' : List Command}
    (h : List.Forall₂ Command.Extends commands commands') (seen : List String) :
    List.Forall₂ Command.Extends (firstOfEachName seen commands)
      (firstOfEachName seen commands') := by
  induction h generalizing seen with
  | nil => exact .nil
  | cons hc _ ih =>
    rw [firstOfEachName, firstOfEachName, hc.name]
    split
    · exact ih _
    · exact .cons hc (ih _)

/-! ## The commands -/

theorem lines_joined {ls : List String} (h : ls ≠ []) :
    lines ("\n".intercalate ls).toList = ls.flatMap fun l => lines l.toList := by
  rw [String.toList_intercalate, show "\n".toList = ['\n'] from rfl,
    lines_intercalate (by simpa using h), List.flatMap_map]

theorem lines_joined_append {first : List String} (h : first ≠ []) (more : List String) :
    lines ("\n".intercalate (first ++ more)).toList =
      lines ("\n".intercalate first).toList ++ more.flatMap fun l => lines l.toList := by
  rw [lines_joined h, lines_joined (by simp [h]), List.flatMap_append]

theorem exists_extract_append {lookahead lookahead' : Nat} (h : lookahead ≤ lookahead')
    (catalog : Catalog) (first more : List String) :
    ∃ front back,
      extract ⟨lookahead', catalog⟩ ("\n".intercalate (first ++ more)) = front ++ back ∧
        List.Forall₂ Command.Extends
          (extract ⟨lookahead, catalog⟩ ("\n".intercalate first)) front := by
  cases first with
  | nil => exact ⟨[], _, rfl, .nil⟩
  | cons line first =>
    obtain ⟨front, back, he, hf⟩ := exists_descriptors_append h catalog .initial
      (lines ("\n".intercalate (line :: first)).toList) (more.flatMap fun l => lines l.toList)
    rw [extract, extract, lines_joined_append (by simp), he, firstOfEachName_append]
    exact ⟨_, _, rfl, firstOfEachName_extends hf []⟩

/-- **Extraction is monotone.** With lines added at the end and a lookahead that is no smaller, the
commands found before are there in the same places, each of them extended. -/
theorem extract_monotone {lookahead lookahead' : Nat} (h : lookahead ≤ lookahead')
    (catalog : Catalog) (first more : List String) :
    (extract ⟨lookahead, catalog⟩ ("\n".intercalate first)).length ≤
        (extract ⟨lookahead', catalog⟩ ("\n".intercalate (first ++ more))).length ∧
      ∀ (k : Nat) (a : Command),
        (extract ⟨lookahead, catalog⟩ ("\n".intercalate first))[k]? = some a →
        ∃ b, (extract ⟨lookahead', catalog⟩ ("\n".intercalate (first ++ more)))[k]? = some b ∧
          a.Extends b := by
  obtain ⟨front, back, he, hf⟩ := exists_extract_append h catalog first more
  rw [he]
  obtain ⟨hlength, hget⟩ := List.forall₂_iff_get.1 hf
  refine ⟨by rw [List.length_append]; omega, fun k a hk => ?_⟩
  obtain ⟨hlt, rfl⟩ := List.getElem?_eq_some_iff.1 hk
  have hlt' : k < front.length := hlength ▸ hlt
  refine ⟨front[k], ?_, hget k hlt hlt'⟩
  rw [List.getElem?_append_left hlt', List.getElem?_eq_getElem hlt']

/-- A comparison whose reply and argument are on a line that was added, and in a window that was
widened. -/
theorem extract_grown_window :
    1 ≤ 2 ∧ ∃ b, (extract ⟨2, ⟨[], []⟩⟩ ("\n".intercalate
        (["memcmp(command,\"a\",1)"] ++ ["strcpy(reply,\"%d\") atoi("])))[0]? = some b ∧
      Command.Extends ⟨"a", .other, [], none, "Execute a command", false, false⟩ b :=
  ⟨by decide, (extract_monotone (show 1 ≤ 2 by decide) ⟨[], []⟩ ["memcmp(command,\"a\",1)"]
    ["strcpy(reply,\"%d\") atoi("]).2 0 _ (by decide +kernel)⟩

end Dispatcher

end CliParity
