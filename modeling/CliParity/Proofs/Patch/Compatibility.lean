import CliParity.Proofs.Patch.Opening
import Mathlib.Tactic.MkIffOfInductiveProp

/-!
# How the patches of the catalogue stand to one another

Whether a patch disturbs another is a question about some twenty snippets, and evaluation answers
it (`compatible_catalogue`). The one exception is the last patch: its text holds an import of the
module of times, which the first patch looks for (`opening_statsMethods`). So the catalogue is split
into the first patch, those `inner` ones, and the last (`Compatible`). To undo a patch would not
disturb those after it either.
-/

set_option autoImplicit false

namespace CliParity

open Text

/-! ## Snippets spelled out -/

namespace Snippet

/-- The text of some lines with the characters of each, one by one. Evaluation is quick with those
and slow with the texts themselves. -/
inductive Spelled : List String → List Char → Prop
  | single {line : List Char} : Spelled [String.ofList line] line
  | cons {line text : List Char} {next : String} {lines : List String} :
      Spelled (next :: lines) text →
        Spelled (String.ofList line :: next :: lines) (line ++ '\n' :: text)

theorem ofLines_of_spelled {lines : List String} {text : List Char} (h : Spelled lines text) :
    ofLines lines = text := by
  induction h with
  | single => rw [ofLines, List.map_singleton, List.intercalate_singleton, String.toList_ofList]
  | cons _ ih =>
    rw [ofLines, List.map_cons, List.intercalate_cons_of_ne_nil (by simp), String.toList_ofList,
      List.append_assoc, List.singleton_append]
    exact congrArg (_ ++ '\n' :: ·) ih

end Snippet

namespace Patch

open Snippet

/-- The patches between the first and the last one. -/
def inner : List Patch :=
  [tempRadioState, reboot, clearStats, neighborRemove, tempRadio, statsRouting, boardRouting]

theorem catalogue_eq : catalogue = imports :: (inner ++ [statsMethods]) := rfl

-- `rewrite`, since `rw` would close the goal by the first equation that it reaches.

/-- The first patch, spelled out. -/
noncomputable def spelledImports : { p : Patch // imports = p } := ⟨_, by
  unfold imports subprocessMarker loggerLine timeImport timeAndSubprocessImport
  repeat rewrite [String.toList_ofList]
  rfl⟩

set_option maxRecDepth 8192 in
/-- The inner patches, spelled out. -/
noncomputable def spelledInner : { ps : List Patch // inner = ps } := ⟨_, by
  unfold inner tempRadioState reboot clearStats neighborRemove tempRadio statsRouting boardRouting
    taskMarker configAssignment boardMarker
  repeat rewrite [String.toList_ofList]
  unfold Snippet.tempRadioState rebootStub rebootMethod clearStatsStub clearStatsMethod
    neighborRemoveStub neighborRemoveMethod tempRadioStub tempRadioMethod statsRoutingStub
    Snippet.statsRouting versionRouting versionAndBoardRouting
  repeat rewrite [ofLines_of_spelled]
  rotate_left
  repeat' first | exact Spelled.single | apply Spelled.cons
  -- one list for each snippet, so that no search has to append its lines again
  dsimp only [List.cons_append, List.nil_append]⟩

set_option maxRecDepth 8192 in
/-- The last patch, spelled out. -/
noncomputable def spelledStatsMethods : { p : Patch // statsMethods = p } := ⟨_, by
  unfold statsMethods statsMarker unknownLogReturn
  repeat rewrite [String.toList_ofList]
  unfold Snippet.statsMethods
  rewrite [ofLines_of_spelled]
  rotate_left
  repeat' first | exact Spelled.single | apply Spelled.cons
  dsimp only [List.cons_append, List.nil_append]⟩

/-! ## Each two patches -/

/-- Patches between a first and a last one that disturb neither one another nor these. -/
@[mk_iff]
structure Compatible (first : Patch) (inner : List Patch) (last : Patch) : Prop where
  regular : ∀ p ∈ first :: (inner ++ [last]), p.edit.Regular
  switchesOff : ∀ p ∈ first :: (inner ++ [last]), p.edit.SwitchesOff
  undisturbed : (inner ++ [last]).Pairwise fun p q =>
    p.edit.Undisturbed q.edit.written.1 q.edit.written.2
  undisturbed_by_first : ∀ p ∈ inner ++ [last],
    p.edit.Undisturbed first.edit.written.1 first.edit.written.2
  /-- Undoing a patch does not disturb those after it. -/
  undisturbed_undoing : (first :: inner).Pairwise fun q p =>
    p.edit.Undisturbed q.edit.written.2 q.edit.written.1
  /-- The anchor of an insertion may touch what the last patch looks for, but its last character
  does not. -/
  last_undisturbed_undoing : ∀ q ∈ first :: inner,
    last.edit.Undisturbed q.edit.narrowed.2 q.edit.narrowed.1
  /-- What the first and the last patch look for is beside all that an inner patch writes or writes
  over. -/
  untouched_by_inner : ∀ q ∈ inner, ∀ x ∈ first.edit.sought ++ last.edit.sought,
    Separate q.edit.narrowed.1 x ∧ Separate q.edit.narrowed.2 x

instance (first : Patch) (inner : List Patch) (last : Patch) :
    Decidable (Compatible first inner last) :=
  decidable_of_iff _ (compatible_iff first inner last).symm

-- One evaluation sees to all fields, since most of them search the same texts.
theorem compatible_catalogue : Compatible imports inner statsMethods := by
  rw [spelledImports.2, spelledInner.2, spelledStatsMethods.2]
  decide +kernel

theorem regular_catalogue : ∀ p ∈ catalogue, p.edit.Regular := compatible_catalogue.regular

theorem switchesOff_catalogue : ∀ p ∈ catalogue, p.edit.SwitchesOff :=
  compatible_catalogue.switchesOff

theorem regular_imports : imports.edit.Regular := regular_catalogue imports (by simp [catalogue])

theorem regular_statsMethods : statsMethods.edit.Regular :=
  regular_catalogue statsMethods (by simp [catalogue])

theorem mem_catalogue_of_mem_inner {p : Patch} (h : p ∈ inner) : p ∈ catalogue := by
  rw [catalogue_eq]
  exact List.mem_cons_of_mem _ (List.mem_append_left _ h)

/-- The text of the last patch opens up the way for the first one. -/
theorem opening_statsMethods :
    Opening subprocessMarker loggerLine timeImport unknownLogReturn Snippet.statsMethods := by
  have h : imports.edit.OpenedBy statsMethods.edit := by
    rw [spelledImports.2, spelledStatsMethods.2]
    change Opening _ _ _ _ _
    decide +kernel
  exact h

end Patch

end CliParity
