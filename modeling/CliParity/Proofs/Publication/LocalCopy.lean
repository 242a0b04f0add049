import CliParity.Proofs.Files.Agreement
import CliParity.Proofs.Publication.Failure

/-!
# Publishing from a local copy

A publication looks for its files on the way to them and nowhere else (`localTo_saveRegistry`). So
one whose sources were fetched and one whose sources are read from stored copies do the same, if
these copies are not on that way (`local_copy_publishes_alike`). The address that the registry is
stamped with comes from different settings in the two.
-/

set_option autoImplicit false

namespace CliParity.Publication

open CliParity.Tree

variable {t t₁ t₂ t' : Tree} {p q : Path} {text u v dispatcher header : String}
  {there : Location} {way : Location → Prop} {fetch : String → Except String String} {s : Settings}
  {registry : Registry} {out : Published} {f : Failure}

/-! ## Where a publication looks -/

theorem localTo_makeParent (hs : ∀ there, OnParentWay p there → way there) :
    LocalTo way (makeParent p : StateM Tree _) := by
  unfold makeParent
  cases hp : p.parent? with
  | none => exact localTo_pure way _
  | some parent =>
    simp only
    split
    · exact localTo_pure way _
    · refine (localTo_createDirs fun there hw => hs there ⟨parent, hp, hw⟩).bind fun result => ?_
      cases result <;> exact localTo_pure way _

/-- The place is on the way to a file, or to its directory. -/
def OnFileWay (p : Path) (there : Location) : Prop := OnWay [] p.steps there ∨ OnParentWay p there

theorem localTo_save (hs : ∀ there, OnFileWay p there → way there) (text : String) :
    LocalTo way (save p text : StateM Tree _) := by
  unfold save
  refine (localTo_makeParent fun there hw => hs there (.inr hw)).bind fun result => ?_
  cases result with
  | error f => exact localTo_pure way _
  | ok _ =>
    refine (localTo_writeText (fun there hw => hs there (.inl hw)) text).bind fun result => ?_
    cases result <;> exact localTo_pure way _

/-- The place is on the way to a file that is published. -/
def OnOutputWay (s : Settings) (there : Location) : Prop :=
  OnFileWay s.output there ∨ s.typescript = true ∧ OnFileWay s.typescriptPath there

theorem localTo_saveRegistry (s : Settings) (registry : Registry) :
    LocalTo (OnOutputWay s) (saveRegistry s registry : StateM Tree _) := by
  unfold saveRegistry
  refine (localTo_save (fun there hw => .inl hw) _).bind fun result => ?_
  cases result with
  | error f => exact localTo_pure _ _
  | ok _ =>
    simp only
    split
    · rename_i hts
      refine (localTo_save (fun there hw => .inr ⟨hts, hw⟩) _).bind fun result => ?_
      cases result <;> exact localTo_pure _ _
    · exact localTo_pure _ _

/-! ## What it leaves -/

/-- What is at the path of the document in the end. -/
def outputText (s : Settings) (registry : Registry) : String :=
  if s.typescript = true ∧ s.typescriptPath = s.output then registry.listing else registry.render

/-- The files hold the registry, and nothing that was there before. -/
theorem find_of_saveRegistry
    (h : (saveRegistry s registry : StateM Tree _).run t = (.ok out, t')) :
    out.registry = registry ∧ t'.find s.output = .ok (.file (outputText s registry).toUTF8) ∧
      (s.typescript = true → t'.find s.typescriptPath = .ok (.file registry.listing.toUTF8)) := by
  unfold outputText
  obtain ⟨t₁, hd, ⟨hts, rfl, rfl⟩ | ⟨hts, rfl, hm⟩⟩ := saveRegistry_eq_ok h
  · simp [hts, find_of_save hd]
  · refine ⟨rfl, ?_, fun _ => find_of_save hm⟩
    by_cases heq : s.typescriptPath = s.output
    · rw [if_pos ⟨hts, heq⟩, ← heq]
      exact find_of_save hm
    · rw [if_neg (fun h => heq h.2)]
      exact find_output_of_module hd hm heq

/-- The failure is one of making a directory or of writing a file. -/
def OfWriting (s : Settings) (f : Failure) : Prop :=
  (∃ parent cause, s.output.parent? = some parent ∧ f = .createDirs parent cause) ∨
    (∃ cause, f = .write s.output cause) ∨
    s.typescript = true ∧ ∃ cause, f = .write s.typescriptPath cause

theorem ofWriting_of_saveRegistry
    (h : (saveRegistry s registry : StateM Tree _).run t = (.error f, t')) : OfWriting s f := by
  rcases saveRegistry_eq_error h with hdoc | ⟨t₁, hdoc, hts, hmod⟩
  · rcases failure_of_saves_error (saves_of_run hdoc) with hdirs | hwrite
    · exact .inl hdirs
    · exact .inr (.inl hwrite)
  · exact .inr (.inr ⟨hts, (module_error_of_document hdoc hmod).2⟩)

/-! ## Both ways to publish -/

/-- Settings by which the sources are fetched. -/
def Settings.fetched (s : Settings) (u v : String) : Settings :=
  { s with dispatcher := .url u, header := .url v }

/-- Settings by which copies are read of what was fetched from `u` and elsewhere. -/
def Settings.stored (s : Settings) (u : String) (p q : Path) : Settings :=
  { s with dispatcher := .file p, header := .file q, canonicalUrl := u }

theorem load_url {fetch : String → Except String String} (h : fetch u = .ok text) (t : Tree) :
    ((load fetch (.url u) : StateM Tree _).run t).1 = .ok text := by
  unfold load
  simp only [h]
  rfl

theorem load_file (fetch : String → Except String String) (h : t.readText p = .ok text) :
    ((load fetch (.file p) : StateM Tree _).run t).1 = .ok text := by
  unfold load
  simp only
  rw [run_bind, run_readText, h]
  rfl

theorem run_publish_fetched (hu : fetch u = .ok dispatcher) (hv : fetch v = .ok header) (t : Tree) :
    (publish fetch (s.fetched u v) : StateM Tree _).run t =
      (saveRegistry s (registryOf (s.fetched u v) dispatcher header) : StateM Tree _).run t :=
  run_publish (load_url hu t) (load_url hv t)

/-- The registry of the copies is the one of the texts that were fetched, with the same stamp. -/
theorem run_publish_stored (fetch : String → Except String String) (v : String)
    (hp : t.readText p = .ok dispatcher) (hq : t.readText q = .ok header) :
    (publish fetch (s.stored u p q) : StateM Tree _).run t =
      (saveRegistry s (registryOf (s.fetched u v) dispatcher header) : StateM Tree _).run t :=
  run_publish (load_file fetch hp) (load_file fetch hq)

/-- **A local copy and a download publish the same**, in trees that agree on the way to the files
that are published: the result is the same, and these files are too, or both fail in writing them
and for the same reason. The registry names the address that was fetched, either way. -/
theorem local_copy_publishes_alike (fetch' : String → Except String String)
    (hu : fetch u = .ok dispatcher) (hv : fetch v = .ok header)
    (hp : t₂.readText p = .ok dispatcher) (hq : t₂.readText q = .ok header)
    (hagree : AgreeOn (OnOutputWay s) t₁ t₂) :
    ∃ registry result left₁ left₂,
      registry = registryOf (s.fetched u v) dispatcher header ∧
      registry = registryOf (s.stored u p q) dispatcher header ∧
      registry.provenance.sourceUrl = u ∧
      (publish fetch (s.fetched u v) : StateM Tree _).run t₁ = (result, left₁) ∧
      (publish fetch' (s.stored u p q) : StateM Tree _).run t₂ = (result, left₂) ∧
      ((∃ out, result = .ok out ∧ out.registry = registry ∧
          ∀ left ∈ [left₁, left₂],
            left.find s.output = .ok (.file (outputText s registry).toUTF8) ∧
            (s.typescript = true →
              left.find s.typescriptPath = .ok (.file registry.listing.toUTF8))) ∨
        ∃ f, result = .error f ∧ OfWriting s f) ∧
      AgreeOn (OnOutputWay s) left₁ left₂ ∧ (t₁ = t₂ → left₁ = left₂) := by
  rw [run_publish_fetched hu hv, run_publish_stored fetch' v hp hq]
  have hstamp : (registryOf (s.fetched u v) dispatcher header).provenance.sourceUrl = u := rfl
  have hsame : registryOf (s.fetched u v) dispatcher header =
      registryOf (s.stored u p q) dispatcher header := rfl
  generalize registryOf (s.fetched u v) dispatcher header = registry at hstamp hsame ⊢
  have halike := localTo_saveRegistry s registry t₁ t₂ hagree
  cases h₁ : (saveRegistry s registry : StateM Tree _).run t₁ with
  | mk result left₁ =>
    cases h₂ : (saveRegistry s registry : StateM Tree _).run t₂ with
    | mk result' left₂ =>
      rw [h₁, h₂] at halike
      obtain ⟨rfl, hleft⟩ := halike
      refine ⟨registry, result, left₁, left₂, rfl, hsame, hstamp, rfl, rfl, ?_, hleft, ?_⟩
      · cases result with
        | error f => exact .inr ⟨f, rfl, ofWriting_of_saveRegistry h₁⟩
        | ok out =>
          obtain ⟨hout, hfiles₁⟩ := find_of_saveRegistry h₁
          obtain ⟨-, hfiles₂⟩ := find_of_saveRegistry h₂
          exact .inl ⟨out, rfl, hout, by simpa using ⟨hfiles₁, hfiles₂⟩⟩
      · rintro rfl
        exact (Prod.mk.inj (h₁.symm.trans h₂)).2

/-! ## An example of both -/

/-- What the two addresses of the firmware give. -/
def fetchFirmware (address : String) : Except String String :=
  if address = dispatcherUrl then .ok "memcmp(command, \"board\", 5)"
  else if address = headerUrl then .ok "struct NodePrefs \x7b int x; \x7d;"
  else .error "404"

/-- A tree with copies of both. -/
def copiesTree : Tree :=
  (empty.put ["CommonCLI.cpp"] (.file "memcmp(command, \"board\", 5)".toUTF8)).put ["CommonCLI.h"]
    (.file "struct NodePrefs \x7b int x; \x7d;".toUTF8)

/-- The defaults, with a module asked for. -/
def withModule : Settings := { Settings.defaults "2026-10-16" with typescript := true }

/-- The way to a file in the root passes the root only. -/
theorem writeLocation_of_onFileWay {name : String} (hsteps : p.steps = [name])
    (hparent : p.parent? = some ⟨""⟩) (h : OnFileWay p there) :
    writeLocation there = "" ∨ writeLocation there = name := by
  obtain ⟨front, hfront, hw⟩ | ⟨parent, hp, front, hfront, hw⟩ := h
  · rw [hsteps, List.prefix_cons_iff] at hfront
    obtain rfl | ⟨rest, rfl, hrest⟩ := hfront
    · exact .inl hw
    · obtain rfl := List.prefix_nil.1 hrest
      by_cases hup : name = ".."
      · exact .inl (by simpa [resolve, hup, writeLocation] using hw)
      · exact .inr (by simpa [resolve, hup, writeLocation] using hw)
  · obtain rfl : (⟨""⟩ : Path) = parent := Option.some.inj (hparent.symm.trans hp)
    have hnil : (⟨""⟩ : Path).steps = [] := by decide +kernel
    rw [hnil, List.prefix_nil] at hfront
    rw [hfront] at hw
    exact .inl hw

theorem copies_off_output_way : AgreeOn (OnOutputWay withModule) empty copiesTree := by
  intro there hw
  have hwritten : writeLocation there = "" ∨ writeLocation there = "meshcore-commands.json" ∨
      writeLocation there = "meshcore-commands.ts" := by
    rcases hw with hw | ⟨-, hw⟩
    · exact (writeLocation_of_onFileWay (by decide +kernel) (by decide +kernel) hw).imp_right .inl
    · exact (writeLocation_of_onFileWay (by decide +kernel) (by decide +kernel) hw).imp_right .inr
  have hheader : writeLocation there ≠ writeLocation ["CommonCLI.h"] := by
    rcases hwritten with h | h | h <;> rw [h] <;> decide
  have hdispatcher : writeLocation there ≠ writeLocation ["CommonCLI.cpp"] := by
    rcases hwritten with h | h | h <;> rw [h] <;> decide
  rw [copiesTree, entry?_put_of_ne _ _ hheader, entry?_put_of_ne _ _ hdispatcher]

/-- What is published of the firmware. -/
def firmwarePublished : Published :=
  ⟨registryOf (withModule.fetched dispatcherUrl headerUrl) "memcmp(command, \"board\", 5)"
    "struct NodePrefs \x7b int x; \x7d;", ⟨"meshcore-commands.json"⟩, some ⟨"meshcore-commands.ts"⟩⟩

/-- A tree with both files of it. -/
def withFirmware (t : Tree) : Tree :=
  (t.put ["meshcore-commands.json"] (.file firmwarePublished.registry.render.toUTF8)).put
    ["meshcore-commands.ts"] (.file firmwarePublished.registry.listing.toUTF8)

/-- The sources are fetched in an empty tree or beside the copies, and the copies are read without
a connection. All three succeed, and leave the same two files beside what was there. -/
theorem copies_published_alike :
    fetchFirmware dispatcherUrl = .ok "memcmp(command, \"board\", 5)" ∧
      copiesTree.readText ⟨"CommonCLI.cpp"⟩ = .ok "memcmp(command, \"board\", 5)" ∧
      (publish fetchFirmware (withModule.fetched dispatcherUrl headerUrl) :
          StateM Tree _).run empty = (.ok firmwarePublished, withFirmware empty) ∧
      (publish fetchFirmware (withModule.fetched dispatcherUrl headerUrl) :
          StateM Tree _).run copiesTree = (.ok firmwarePublished, withFirmware copiesTree) ∧
      (publish (fun _ => .error "offline")
          (withModule.stored dispatcherUrl ⟨"CommonCLI.cpp"⟩ ⟨"CommonCLI.h"⟩) :
          StateM Tree _).run copiesTree = (.ok firmwarePublished, withFirmware copiesTree) ∧
      firmwarePublished.registry.provenance.sourceUrl = dispatcherUrl ∧
      ∀ left ∈ [withFirmware empty, withFirmware copiesTree],
        left.find ⟨"meshcore-commands.json"⟩ =
          .ok (.file firmwarePublished.registry.render.toUTF8) ∧
        left.find ⟨"meshcore-commands.ts"⟩ =
          .ok (.file firmwarePublished.registry.listing.toUTF8) := by
  have hu : fetchFirmware dispatcherUrl = .ok "memcmp(command, \"board\", 5)" := rfl
  have hv : fetchFirmware headerUrl = .ok "struct NodePrefs \x7b int x; \x7d;" := rfl
  have hp : copiesTree.readText ⟨"CommonCLI.cpp"⟩ = .ok "memcmp(command, \"board\", 5)" :=
    readText_of_find rfl
  have hq : copiesTree.readText ⟨"CommonCLI.h"⟩ = .ok "struct NodePrefs \x7b int x; \x7d;" :=
    readText_of_find rfl
  have hempty : (publish fetchFirmware (withModule.fetched dispatcherUrl headerUrl) :
      StateM Tree _).run empty = (.ok firmwarePublished, withFirmware empty) := rfl
  have hbeside : (publish fetchFirmware (withModule.fetched dispatcherUrl headerUrl) :
      StateM Tree _).run copiesTree = (.ok firmwarePublished, withFirmware copiesTree) := rfl
  -- beside the copies both ways leave one tree
  obtain ⟨-, _, _, _, -, -, -, hrun', hcopies', -, -, hleft⟩ :=
    local_copy_publishes_alike (fun _ => .error "offline") hu hv hp hq
      (AgreeOn.refl (OnOutputWay withModule) copiesTree)
  rw [← hleft rfl, ← hrun', hbeside] at hcopies'
  obtain ⟨registry, _, _, _, -, -, hstamp, hrun, hcopies, hfiles, -⟩ :=
    local_copy_publishes_alike (fun _ => .error "offline") hu hv hp hq copies_off_output_way
  cases hempty.symm.trans hrun
  cases hcopies'.symm.trans hcopies
  rcases hfiles with ⟨_, hout, rfl, hfound⟩ | ⟨_, hfailed, -⟩
  · cases hout
    refine ⟨hu, hp, hempty, hbeside, hcopies', hstamp, fun left hleft => ?_⟩
    obtain ⟨hdocument, hmodule⟩ := hfound left hleft
    exact ⟨hdocument, hmodule rfl⟩
  · cases hfailed

end CliParity.Publication
