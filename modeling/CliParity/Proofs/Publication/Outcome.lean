import CliParity.Proofs.Files.Tree
import CliParity.Proofs.Preferences.Layout
import CliParity.Proofs.Registry.Document
import CliParity.Publication.Basic

/-!
# What a publication leaves

Loading a source leaves the tree as it is (`load_keeps`), and saving a file makes directories and
writes the file (`save_eq_ok`). The module is saved last, so it can be read afterwards. The document
can too, unless both have one path, which is so if the output is named with the extension of a
module (`readText_output_iff`). `publish_leaves_documents` says this of the whole run.
-/

set_option autoImplicit false

namespace CliParity.Publication

open CliParity.Tree

variable {t t₁ t' : Tree} {p : Path} {text text' : String}
  {fetch : String → Except String String} {s : Settings} {registry : Registry} {out : Published}

/-! ## Steps -/

theorem load_keeps (fetch : String → Except String String) (source : Source) (t : Tree) :
    ((load fetch source : StateM Tree _).run t).2 = t := by
  cases source with
  | url address =>
    rw [load]
    split <;> rfl
  | file path =>
    rw [load, run_bind, run_readText]
    split <;> rfl

theorem grows_makeParent (p : Path) (t : Tree) :
    t.Grows ((makeParent p : StateM Tree _).run t).2 := by
  rw [makeParent]
  split
  · exact .refl t
  · rename_i parent _
    split
    · exact .refl t
    · rw [run_bind, run_createDirs]
      split <;> exact grows_createDirs t parent

/-- A file is written in a tree that has grown by directories. -/
theorem save_eq_ok (h : (save p text : StateM Tree _).run t = (.ok (), t')) :
    ∃ t₁, t.Grows t₁ ∧ t₁.write p text.toUTF8 = .ok t' := by
  refine ⟨_, grows_makeParent p t, ?_⟩
  rw [save, run_bind] at h
  split at h
  · cases h
  · rw [run_bind, run_writeText] at h
    split at h
    · rename_i hw
      obtain ⟨-, ht⟩ := Prod.mk.inj h
      exact writeText_eq_ok_iff.1 (Prod.ext hw ht)
    · cases h

/-- A registry is saved as its document and, if asked for, as its module. -/
theorem saveRegistry_eq_ok
    (h : (saveRegistry s registry : StateM Tree _).run t = (.ok out, t')) :
    ∃ t₁, (save s.output registry.render : StateM Tree _).run t = (.ok (), t₁) ∧
      ((s.typescript = false ∧ out = ⟨registry, s.output, none⟩ ∧ t' = t₁) ∨
       (s.typescript = true ∧ out = ⟨registry, s.output, some s.typescriptPath⟩ ∧
        (save s.typescriptPath registry.listing : StateM Tree _).run t₁ = (.ok (), t'))) := by
  rw [saveRegistry, run_bind] at h
  split at h
  · cases h
  rename_i hd
  refine ⟨_, Prod.ext hd rfl, ?_⟩
  split at h
  · rename_i hts
    rw [run_bind] at h
    split at h
    · cases h
    rename_i hm
    obtain ⟨ho, ht⟩ := Prod.mk.inj h
    exact .inr ⟨hts, (Except.ok.inj ho).symm, Prod.ext hm ht⟩
  · rename_i hts
    obtain ⟨ho, ht⟩ := Prod.mk.inj h
    exact .inl ⟨by simpa using hts, (Except.ok.inj ho).symm, ht.symm⟩

/-- The registry of two texts is saved, in the tree as it was. -/
theorem publish_eq_ok (h : (publish fetch s : StateM Tree _).run t = (.ok out, t')) :
    ∃ dispatcher header,
      (saveRegistry s (registryOf s dispatcher header) : StateM Tree _).run t = (.ok out, t') := by
  rw [publish, run_bind, load_keeps] at h
  split at h
  · cases h
  · rename_i dispatcher _
    rw [run_bind, load_keeps] at h
    split at h
    · cases h
    · rename_i header _
      exact ⟨dispatcher, header, h⟩

/-! ## What is read afterwards -/

theorem find_of_save (h : (save p text : StateM Tree _).run t = (.ok (), t')) :
    t'.find p = .ok (.file text.toUTF8) := by
  obtain ⟨t₁, -, hw⟩ := save_eq_ok h
  exact find_of_write hw

theorem readText_of_save (h : (save p text : StateM Tree _).run t = (.ok (), t')) :
    t'.readText p = .ok text := readText_of_find (find_of_save h)

/-- The document stays where the module has another path. -/
theorem find_output_of_module
    (hd : (save s.output text : StateM Tree _).run t = (.ok (), t₁))
    (hm : (save s.typescriptPath text' : StateM Tree _).run t₁ = (.ok (), t'))
    (hne : s.typescriptPath ≠ s.output) : t'.find s.output = .ok (.file text.toUTF8) := by
  obtain ⟨_, hg, hw⟩ := save_eq_ok hm
  obtain ⟨front, name, hs, hext⟩ := s.output.exists_splitsAs
  exact find_of_write_beside (find_of_grows hg (find_of_save hd)) hw hs (hext "ts" (by decide))
    hne.symm

/-- The module is saved beside the document, or over it if the document's path is already named
like a module. -/
theorem readText_output_iff
    (hd : (save s.output text : StateM Tree _).run t = (.ok (), t₁))
    (hm : (save s.typescriptPath text' : StateM Tree _).run t₁ = (.ok (), t'))
    (hne : text ≠ text') :
    t'.readText s.output = .ok text ↔ ¬ s.output.HasExtension "ts" := by
  obtain ⟨_, -, hw⟩ := save_eq_ok hd
  obtain ⟨_, -, hw'⟩ := save_eq_ok hm
  obtain ⟨-, -, -, -, hp, -⟩ := write_eq_ok hw
  obtain ⟨-, -, -, -, he, -⟩ := write_eq_ok hw'
  rw [← Path.withExtension_eq_self_iff (by decide) (by decide) hp he]
  by_cases heq : s.output.withExtension "ts" = s.output
  · have hread := readText_of_save hm
    rw [Settings.typescriptPath, heq] at hread
    simp [hread, heq, hne.symm]
  · exact iff_of_true (readText_of_find (find_output_of_module hd hm heq)) heq

theorem render_ne_listing (r : Registry) : r.render ≠ r.listing := fun h => by
  have hr : r.render.toList.head? = some '\x7b' := by
    simp [Registry.render, Registry.toJson, Json.pretty, Json.object, Json.layOut]
  have hl : r.listing.toList.head? = some '/' := by
    simp [Registry.listing, Registry.listingLines, Registry.listingHead,
      String.intercalate_cons_cons]
  simp [h, hl] at hr

/-- A published registry is read back from its document. -/
theorem read?_render_registryOf (s : Settings) (dispatcher header : String)
    (h : (registryOf s dispatcher header).totalCommands < Text.wordLimit) :
    Registry.read? (registryOf s dispatcher header).render =
      some (registryOf s dispatcher header) := by
  have hf : (registryOf s dispatcher header).FitsWords := ⟨h, fitsWord_layout s.structName header⟩
  rw [Registry.read?, Registry.render, Json.read?_pretty (Registry.proper_toJson _),
    Option.bind_some, Registry.ofJson?_toJson hf]

/-- **A publication leaves what it reports**, but for one case: if a module is asked for and the
output is named with its extension already, the module stands in the document's place. A list in
memory has fewer elements than a word counts, so the document that is left is always one that the
registry is read back from.

It is the only case because a tree has no links: two names in one directory are never one file. -/
theorem publish_leaves_documents
    (h : (publish fetch s : StateM Tree _).run t = (.ok out, t')) :
    out.jsonPath = s.output ∧
    out.typescriptPath = (if s.typescript then some s.typescriptPath else none) ∧
    (∀ p ∈ out.typescriptPath, t'.readText p = .ok out.registry.listing) ∧
    (t'.readText out.jsonPath = .ok out.registry.render ↔
      ¬ (s.typescript = true ∧ s.output.HasExtension "ts")) ∧
    (out.registry.totalCommands < Text.wordLimit →
      Registry.read? out.registry.render = some out.registry) := by
  obtain ⟨dispatcher, header, hr⟩ := publish_eq_ok h
  have hread := read?_render_registryOf s dispatcher header
  obtain ⟨t₁, hd, ⟨hts, rfl, rfl⟩ | ⟨hts, rfl, hm⟩⟩ := saveRegistry_eq_ok hr
  · refine ⟨rfl, by simp [hts], by simp, ?_, hread⟩
    exact iff_of_true (readText_of_save hd) (by simp [hts])
  · refine ⟨rfl, by simp [hts], ?_, ?_, hread⟩
    · rintro p ⟨⟩
      exact readText_of_save hm
    · simpa [hts] using readText_output_iff hd hm (render_ne_listing _)

/-- Settings that ask for a module, with an output that is named like one. -/
def outputNamedAsModule : Settings where
  dispatcher := .url "dispatcher"
  header := .url "header"
  output := ⟨"x.ts"⟩
  typescript := true
  lookahead := Dispatcher.Settings.defaultLookahead
  structName := defaultStructName
  version := "2024-01-31"
  canonicalUrl := dispatcherUrl

/-- What a run with them reports where the sources are empty. -/
def reportedAtOnePath : Published :=
  ⟨registryOf outputNamedAsModule "" "", ⟨"x.ts"⟩, some ⟨"x.ts"⟩⟩

theorem module_over_document : ∃ t',
    (publish (fun _ => .ok "") outputNamedAsModule : StateM Tree _).run .empty =
      (.ok reportedAtOnePath, t') ∧
    t'.readText reportedAtOnePath.jsonPath = .ok reportedAtOnePath.registry.listing ∧
    t'.readText reportedAtOnePath.jsonPath ≠ .ok reportedAtOnePath.registry.render := by
  have hresult : ((publish (fun _ => .ok "") outputNamedAsModule : StateM Tree _).run .empty).1 =
      .ok reportedAtOnePath := by decide +kernel
  have hrun := Prod.ext hresult rfl
  have hext : outputNamedAsModule.output.HasExtension "ts" :=
    ⟨[], ['x'], ⟨by decide, .inl rfl, by decide⟩, by simp⟩
  obtain ⟨-, -, hmodule, hdocument, -⟩ := publish_leaves_documents hrun
  exact ⟨_, hrun, hmodule ⟨"x.ts"⟩ rfl, fun h => hdocument.1 h ⟨rfl, hext⟩⟩

end CliParity.Publication
