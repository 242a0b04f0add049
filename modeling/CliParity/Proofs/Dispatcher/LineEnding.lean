import CliParity.Proofs.Dispatcher.Alike
import CliParity.Proofs.Text.LineEnding

/-!
# Line endings in a dispatcher

A scan sees of a line only what its readers tell, so lines of which all readers tell the same
(`SeenAlike`) act alike. Every reader ignores a carriage return behind the line
(`seenAlike_return`), so a dispatcher has the same commands with either line ending
(`extract_crlf`).
-/

set_option autoImplicit false

namespace CliParity.Dispatcher

open Text

/-! ## Lines that are seen alike -/

/-- Two lines of which a scan sees the same. -/
structure SeenAlike (a b : List Char) : Prop where
  comparison : Comparison.first? a = Comparison.first? b
  reply : replyTemplate? a = replyTemplate? b
  argument : argumentType? a = argumentType? b
  guard : guardsSerial a = guardsSerial b
  branch : startsElse a = startsElse b
  opens : ∀ block : Block, block.isOpenedBy a = block.isOpenedBy b
  leaves : ∀ block : Block, leavesBlock block.word a = leavesBlock block.word b

theorem SeenAlike.actsAlike {a b : List Char} (h : SeenAlike a b) : ActsAlike a b where
  comparison := h.comparison
  format := by rw [format?, format?, h.reply]
  argument := h.argument
  enter context := by simp only [Context.enter, Context.blockAt, h.opens, h.leaves, h.guard]
  leave context := by simp only [Context.leave, h.branch]

/-! ## A carriage return behind a line -/

theorem Subject.ignoresReturn_read? : IgnoresReturn Subject.read? :=
  .or (.literal _ (by decide)) (.literal _ (by decide))

theorem Comparison.ignoresReturn_read? : IgnoresReturn Comparison.read? := by
  refine .after (by decide) ?_
  refine .after_skipBlanks (by simp) (by decide) ?_
  refine .bind (.skipBlanks Subject.ignoresReturn_read? (by decide)) fun subject => ?_
  refine .after_skipBlanks (by simp) (by decide) ?_
  refine .after_skipBlanks (by simp) (by decide) ?_
  refine .run_bind (by decide) (fun literal => ?_) fun literal => rfl
  refine .after (by decide) ?_
  refine .after_skipBlanks (by simp) (by decide) ?_
  refine .bind (.skipBlanks (.run (by decide)) rfl) fun digits => ?_
  refine .after_skipBlanks (by simp) (by decide) ?_
  exact .pure _

theorem ignoresReturn_readReply? {function : String} (hf : '\r' ∉ function.toList) :
    IgnoresReturn (readReply? function) := by
  refine .after hf ?_
  refine .after_skipBlanks (by simp) (by decide) ?_
  refine .after_skipBlanks (by decide) (by decide) ?_
  refine .after_skipBlanks (by simp) (by decide) ?_
  refine .after_skipBlanks (by simp) (by decide) ?_
  exact .span (by decide) (fun literal => .after (by decide) (.pure literal)) fun literal => rfl

theorem ignoresReturn_readSerialGuard? : IgnoresReturn readSerialGuard? := by
  refine .after (by decide) ?_
  refine .after_skipBlanks (by decide) (by decide) ?_
  refine .after_skipBlanks (by simp) (by decide) ?_
  exact .pure ()

theorem firstReply?_return {function : String} (hf : '\r' ∉ function.toList)
    (hr : readReply? function ['\r'] = none) (a : List Char) :
    firstMatch? (readReply? function) (a ++ ['\r']) = firstMatch? (readReply? function) a :=
  (ignoresReturn_readReply? hf).firstMatch? hr a

theorem seenAlike_return (a : List Char) : SeenAlike a (a ++ ['\r']) where
  comparison := (Comparison.ignoresReturn_read?.firstMatch? (by decide) a).symm
  reply := by
    simp (disch := decide) only [replyTemplate?, replyFunctions, List.findSome?_cons,
      List.findSome?_nil, firstReply?_return]
  argument := by
    simp (disch := decide) only [argumentType?, conversionCalls, List.find?_cons,
      List.find?_nil, contains_return]
  guard := by
    rw [guardsSerial, guardsSerial, ignoresReturn_readSerialGuard?.firstMatch? (by decide)]
  branch := by
    rw [startsElse, startsElse, trim_return]
  opens block := by
    cases block <;> simp (disch := decide) only [Block.isOpenedBy, Block.openings, List.any_cons,
      List.any_nil, contains_return]
  leaves block := by
    have hword : '\r' ∉ block.word.toList := by cases block <;> decide
    rw [leavesBlock, leavesBlock, contains_return (by decide), contains_return hword]

/-! ## The commands -/

/-- A dispatcher has the same commands with either line ending. -/
theorem extract_crlf (settings : Settings) (source : String) :
    extract settings (crlf source) = extract settings source := by
  have halike : List.Forall₂ ActsAlike (lines source.toList) (lines (crlf source).toList) := by
    rw [toList_crlf]
    refine (forall₂_returned_lines source.toList).imp fun a b h => ?_
    rcases h with rfl | rfl
    · exact .refl b
    · exact (seenAlike_return a).actsAlike
  rw [extract, extract, descriptors_congr halike settings]

end CliParity.Dispatcher
