import CliParity.Proofs.Patch.Masking

/-!
# What patched code refers to

Some patches write code that needs a definition which another patch, its provider, writes
(`references`). Patches do not look at one another, so the one may be applied and the other not. No
patch but the provider adds or removes the definition (`treats_references`), so a run leaves it in a
text exactly if it was there or the provider was applied (`infix_content_iff`,
`definition_in_content_iff`). The provider is applied only where its place was in the text
(`provider_not_applied`), so there are texts in which a run refers to what is nowhere
(`references_without_definitions`).
-/

set_option autoImplicit false

namespace CliParity

open Text

/-! ## What two texts begin with -/

namespace Text

variable {old new s t : List Char}

/-- Two texts without what both begin with, but with the last character of the first. -/
def beyondCommon : List Char → List Char → List Char × List Char
  | c :: d :: old, e :: new =>
    if c = e then beyondCommon (d :: old) new else (c :: d :: old, e :: new)
  | old, new => (old, new)

theorem exists_beyondCommon (old new : List Char) : ∃ a,
    old = a ++ (beyondCommon old new).1 ∧ new = a ++ (beyondCommon old new).2 := by
  fun_induction beyondCommon old new with
  | case1 d old c new ih =>
    obtain ⟨a, ho, hn⟩ := ih
    exact ⟨c :: a, by rw [List.cons_append, ← ho], by rw [List.cons_append, ← hn]⟩
  | case2 => exact ⟨[], rfl, rfl⟩
  | case3 => exact ⟨[], rfl, rfl⟩

theorem Rewrites.beyondCommon (h : Rewrites old new s t) :
    Rewrites (beyondCommon old new).1 (Text.beyondCommon old new).2 s t := by
  obtain ⟨a, ho, hn⟩ := exists_beyondCommon old new
  generalize Text.beyondCommon old new = pair at ho hn ⊢
  subst ho hn
  exact h.narrow

end Text

/-! ## Where an edit is done -/

namespace Edit

/-- The text that shows where the edit is done. -/
def place : Edit → List Char
  | replace old _ => old
  | replaceUnless _ old _ => old
  | replaceBefore _ boundary _ _ => boundary
  | insertAfter _ anchor _ => anchor
  | appendToLastLine _ anchor _ => anchor

theorem place_infix_of_ready {e : Edit} {s : List Char} (h : e.Ready s) : e.place <:+: s := by
  cases e with
  | replace old new => exact h
  | replaceUnless marker old new => exact h.2
  | replaceBefore marker boundary old new =>
    obtain ⟨-, head, tail, hc, -⟩ := h
    exact ⟨head, tail, (cutFirst?_eq_append hc).symm⟩
  | insertAfter marker anchor text => exact h.2
  | appendToLastLine marker anchor text =>
    obtain ⟨-, head, tail, hc, -⟩ := h
    exact ⟨head, tail, (cutLast?_eq_append hc).symm⟩

end Edit

namespace Patch

open Snippet

variable {q : Patch} {ps : List Patch} {d s : List Char} {name : String}

/-! ## What a step does to a text -/

/-- The patch neither adds nor removes the text. -/
def Keeps (q : Patch) (d : List Char) : Prop :=
  Survives (beyondCommon q.edit.written.1 q.edit.written.2).1
      (beyondCommon q.edit.written.1 q.edit.written.2).2 d ∧
    Survives (beyondCommon q.edit.written.1 q.edit.written.2).2
      (beyondCommon q.edit.written.1 q.edit.written.2).1 d

instance (q : Patch) (d : List Char) : Decidable (q.Keeps d) :=
  inferInstanceAs (Decidable (_ ∧ _))

theorem infix_step_iff (hq : q.edit.Regular) (h : q.Keeps d) (s : List Char) :
    d <:+: q.step s ↔ d <:+: s := by
  have hw := (rewrites_step hq s).beyondCommon
  exact ⟨hw.symm.infix_of_survives h.2, hw.infix_of_survives h.1⟩

/-- The patch writes the text if it has the name, and else neither adds nor removes it. -/
def Treats (name : String) (d : List Char) (q : Patch) : Prop :=
  if q.name = name then d <:+: q.edit.written.2 else q.Keeps d

instance (name : String) (d : List Char) (q : Patch) : Decidable (q.Treats name d) :=
  decidable_of_iff (if q.name = name then occursIn d q.edit.written.2 = true else q.Keeps d) <| by
    simp only [occursIn_iff, Treats]

/-- A text is there after a run if it was there before, or a patch was applied that writes it. -/
theorem infix_content_iff (hr : ∀ q ∈ ps, q.edit.Regular) (h : ∀ q ∈ ps, Treats name d q) :
    d <:+: (applyAll ps s).content ↔ d <:+: s ∨ name ∈ (applyAll ps s).applied := by
  induction ps generalizing s with
  | nil => simp [applyAll]
  | cons q ps ih =>
    have ih := ih (s := q.step s) (fun r hm => hr r (List.mem_cons_of_mem q hm))
      fun r hm => h r (List.mem_cons_of_mem q hm)
    have hq := hr q List.mem_cons_self
    have ht := h q List.mem_cons_self
    rw [content_cons, ih]
    by_cases hs : q.Settled s
    · rw [applyAll_cons_of_settled hs, step_of_settled hs]
    rw [applied_cons_of_not_settled hs, List.mem_cons]
    rw [Treats] at ht
    split at ht
    · -- the step has put the text in
      rename_i hn
      obtain ⟨t, he⟩ := Option.ne_none_iff_exists'.1 hs
      have hd : d <:+: q.step s := by
        rw [step, he, Option.getD_some]
        exact ht.trans (effect?_spec hq he).2.2.2
      simp [hd, hn]
    · rename_i hn
      rw [infix_step_iff hq ht, or_iff_right (Ne.symm hn)]

/-- A patch is not applied if its place is not there and no patch in front adds it. -/
theorem name_not_mem_applied {p : Patch} (pre post : List Patch)
    (hpre : p.name ∉ pre.map Patch.name) (hpost : p.name ∉ post.map Patch.name)
    (hr : ∀ q ∈ pre ++ p :: post, q.edit.Regular) (hk : ∀ q ∈ pre, q.Keeps p.edit.place)
    (h : ¬ p.edit.place <:+: s) : p.name ∉ (applyAll (pre ++ p :: post) s).applied := by
  have hplace : ¬ p.edit.place <:+: (applyAll pre s).content := by
    refine applyAll_keeps (P := fun t => ¬ p.edit.place <:+: t) (fun q hq t ht => ?_) h
    rwa [infix_step_iff (hr q (List.mem_append_left _ hq)) (hk q hq)]
  rw [name_mem_applied_iff hpre hpost, not_not, settled_iff (hr p (by simp))]
  exact fun hp => hplace (Edit.place_infix_of_ready hp)

/-! ## References -/

/-- A patch writes code that refers to a definition, and another patch writes the definition. -/
structure Reference where
  user : Patch
  provider : Patch
  definition : List Char

/-- The first assignment of the task that reverts the radio parameters. -/
def taskAssignment : List Char := "self._tempradio_task = None".toList

/-- The method of the board command. -/
def boardMethod : List Char := "def _cmd_board".toList

/-- The references between the patches of the catalogue. -/
def references : List Reference :=
  [⟨reboot, imports, subprocessMarker⟩, ⟨tempRadio, imports, subprocessMarker⟩,
   ⟨tempRadio, tempRadioState, taskAssignment⟩, ⟨statsRouting, statsMethods, statsMarker⟩,
   ⟨boardRouting, statsMethods, boardMethod⟩]

theorem treats_references :
    ∀ r ∈ references, ∀ q ∈ catalogue, Treats r.provider.name r.definition q := by
  rw [catalogue_eq, spelledImports.2, spelledInner.2, spelledStatsMethods.2]
  unfold references subprocessMarker taskAssignment statsMarker boardMethod
  repeat rewrite [String.toList_ofList]
  decide +kernel

theorem provider_mem_catalogue : ∀ r ∈ references, r.provider ∈ catalogue := by
  simp [references, catalogue]

/-! ## Stubs with and without a place for definitions -/

theorem not_settled_of_ready {p : Patch} (hp : p ∈ catalogue) (h : p.edit.Ready s) :
    ¬ p.Settled s := fun hs => (settled_iff (regular_catalogue p hp)).1 hs h

theorem applied_of_ready {p : Patch} (hp : p ∈ catalogue) (h : p.edit.Ready s) :
    p.name ∈ (applyAll catalogue s).applied :=
  name_mem_applied settled_of_settled_step hp (not_settled_of_ready hp h)

/-- The methods and routes that need definitions, without the places that these go to. -/
def stubsAlone : List Char :=
  rebootStub ++ '\n' :: (tempRadioStub ++ '\n' :: (statsRoutingStub ++ '\n' :: versionRouting))

set_option maxRecDepth 8192 in
/-- The text, spelled out. -/
noncomputable def spelledStubsAlone : { s : List Char // stubsAlone = s } := ⟨_, by
  unfold stubsAlone rebootStub tempRadioStub statsRoutingStub versionRouting
  repeat rewrite [ofLines_of_spelled]
  rotate_left
  repeat' first | exact Spelled.single | apply Spelled.cons
  dsimp only [List.cons_append, List.nil_append]⟩

theorem absent_stubsAlone :
    ∀ d ∈ [subprocessMarker, taskAssignment, statsMarker, boardMethod, taskMarker, boardMarker,
      loggerLine, configAssignment, unknownLogReturn], ¬ d <:+: stubsAlone := by
  simp only [← occursIn_iff]
  rw [spelledStubsAlone.2]
  unfold subprocessMarker taskAssignment statsMarker boardMethod taskMarker boardMarker
    loggerLine configAssignment unknownLogReturn
  repeat rewrite [String.toList_ofList]
  decide +kernel

theorem tempRadioStub_infix_stubsAlone : tempRadioStub <:+: stubsAlone :=
  ⟨rebootStub ++ ['\n'], '\n' :: (statsRoutingStub ++ '\n' :: versionRouting),
    by simp [stubsAlone]⟩

/-- The same behind the place of the state of the temporary radio parameters. -/
def stubsWithConfig : List Char := configAssignment ++ '\n' :: stubsAlone

theorem not_taskMarker_infix_stubsWithConfig : ¬ taskMarker <:+: stubsWithConfig := by
  have hline : '\n' ∉ taskMarker := by decide
  have hconfig : ¬ taskMarker <:+: configAssignment := by
    rw [← occursIn_iff]
    unfold taskMarker configAssignment
    repeat rewrite [String.toList_ofList]
    decide
  rw [stubsWithConfig, infix_append_cons_iff hline, not_or]
  exact ⟨hconfig, absent_stubsAlone taskMarker (by simp)⟩

/-! ## Definitions -/

/-- **Definitions come from their patch alone.** A run leaves a definition that other patches refer
to in a text exactly if it was there or the patch was applied that writes it; so it does wherever
that patch alone would change the text. -/
theorem definition_in_content_iff {r : Reference} (hr : r ∈ references) (s : List Char) :
    (r.definition <:+: (applyAll catalogue s).content ↔
      r.definition <:+: s ∨ r.provider.name ∈ (applyAll catalogue s).applied) ∧
    (¬ r.provider.Settled s → r.definition <:+: (applyAll catalogue s).content) := by
  have hiff := infix_content_iff (s := s) regular_catalogue (treats_references r hr)
  refine ⟨hiff, fun hs => hiff.2 (.inr ?_)⟩
  exact name_mem_applied settled_of_settled_step (provider_mem_catalogue r hr) hs

/-- Behind the configuration, the stub of the temporary radio parameters gets what it refers to. -/
theorem task_assigned_behind_configuration :
    "tempradio" ∈ (applyAll catalogue stubsWithConfig).applied ∧
      taskAssignment <:+: (applyAll catalogue stubsWithConfig).content := by
  have hstub : tempRadioStub <:+: stubsWithConfig :=
    tempRadioStub_infix_stubsAlone.trans ⟨configAssignment ++ ['\n'], [], by simp [stubsWithConfig]⟩
  have hstate : ¬ tempRadioState.Settled stubsWithConfig :=
    not_settled_of_ready (by simp [catalogue])
      ⟨not_taskMarker_infix_stubsWithConfig, List.infix_append [] _ _⟩
  have hr : ⟨tempRadio, tempRadioState, taskAssignment⟩ ∈ references := by simp [references]
  exact ⟨applied_of_ready (p := tempRadio) (by simp [catalogue]) hstub,
    (definition_in_content_iff hr stubsWithConfig).2 hstate⟩

/-! ## Uses without their definitions -/

/-- No patch adds the place of a provider behind it. -/
theorem keeps_places : imports.Keeps configAssignment ∧
    ∀ q ∈ imports :: inner, q.Keeps unknownLogReturn := by
  rw [spelledImports.2, spelledInner.2]
  unfold configAssignment unknownLogReturn
  repeat rewrite [String.toList_ofList]
  decide +kernel

/-- The patch that writes a definition is applied only where its place was at the start. -/
theorem provider_not_applied {r : Reference} (hr : r ∈ references)
    (h : ¬ r.provider.edit.place <:+: s) : r.provider.name ∉ (applyAll catalogue s).applied := by
  have himports (h : ¬ loggerLine <:+: s) : imports.name ∉ (applyAll catalogue s).applied :=
    name_not_mem_applied [] (inner ++ [statsMethods]) (by decide) (by decide) regular_catalogue
      (by simp) h
  have hstate (h : ¬ configAssignment <:+: s) :
      tempRadioState.name ∉ (applyAll catalogue s).applied :=
    name_not_mem_applied [imports] (inner.tail ++ [statsMethods]) (by decide) (by decide)
      regular_catalogue (List.forall_mem_singleton.2 keeps_places.1) h
  have hmethods (h : ¬ unknownLogReturn <:+: s) :
      statsMethods.name ∉ (applyAll catalogue s).applied :=
    name_not_mem_applied (imports :: inner) [] (by decide) (by decide) regular_catalogue
      keeps_places.2 h
  simp only [references, List.mem_cons, List.not_mem_nil, or_false] at hr
  rcases hr with rfl | rfl | rfl | rfl | rfl
  · exact himports h
  · exact himports h
  · exact hstate h
  · exact hmethods h
  · exact hmethods h

theorem users_applied_stubsAlone : ∀ r ∈ references,
    r.user.name ∈ (applyAll catalogue stubsAlone).applied := by
  have hreboot : rebootStub <:+: stubsAlone := ⟨[], _, rfl⟩
  have hstats : statsRoutingStub <:+: stubsAlone :=
    ⟨rebootStub ++ '\n' :: tempRadioStub ++ ['\n'], '\n' :: versionRouting,
      by simp [stubsAlone]⟩
  have hversion : versionRouting <:+: stubsAlone :=
    ⟨rebootStub ++ '\n' :: tempRadioStub ++ '\n' :: statsRoutingStub ++ ['\n'], [],
      by simp [stubsAlone]⟩
  have hboard : ¬ boardMarker <:+: stubsAlone := absent_stubsAlone _ (by simp)
  have happlied (p : Patch) (hp : p ∈ catalogue) (h : p.edit.Ready stubsAlone) :=
    applied_of_ready hp h
  simp only [references, List.forall_mem_cons]
  exact ⟨happlied reboot (by simp [catalogue]) hreboot,
    happlied tempRadio (by simp [catalogue]) tempRadioStub_infix_stubsAlone,
    happlied tempRadio (by simp [catalogue]) tempRadioStub_infix_stubsAlone,
    happlied statsRouting (by simp [catalogue]) hstats,
    happlied boardRouting (by simp [catalogue]) ⟨hboard, hversion⟩, List.forall_mem_nil _⟩

/-- No patch of a run adds what the stubs alone lack. -/
theorem definition_not_in_content_stubsAlone : ∀ r ∈ references,
    ¬ r.definition <:+: (applyAll catalogue stubsAlone).content := by
  intro r hr
  have habsent : ¬ r.definition <:+: stubsAlone ∧ ¬ r.provider.edit.place <:+: stubsAlone := by
    constructor
    all_goals
      refine absent_stubsAlone _ ?_
      revert r
      simp [references, imports, tempRadioState, statsMethods, Edit.place]
  rw [infix_content_iff regular_catalogue (treats_references r hr), not_or]
  exact ⟨habsent.1, provider_not_applied hr habsent.2⟩

/-- The stubs alone are patched, and what the patched code refers to is in none of it. -/
theorem references_without_definitions :
    ["reboot", "tempradio", "stats_routing", "board_routing"] ⊆
        (applyAll catalogue stubsAlone).applied ∧
      ¬ subprocessMarker <:+: (applyAll catalogue stubsAlone).content ∧
      ¬ taskAssignment <:+: (applyAll catalogue stubsAlone).content ∧
      ¬ statsMarker <:+: (applyAll catalogue stubsAlone).content ∧
      ¬ boardMethod <:+: (applyAll catalogue stubsAlone).content := by
  have husers := users_applied_stubsAlone
  have hdefs := definition_not_in_content_stubsAlone
  simp only [references, List.forall_mem_cons] at husers hdefs
  obtain ⟨hreboot, htempradio, -, hstats, hboard, -⟩ := husers
  obtain ⟨hsubprocess, -, htask, hmethods, hmethod, -⟩ := hdefs
  refine ⟨?_, hsubprocess, htask, hmethods, hmethod⟩
  simp only [List.cons_subset]
  exact ⟨hreboot, htempradio, hstats, hboard, List.nil_subset _⟩

end Patch

end CliParity
