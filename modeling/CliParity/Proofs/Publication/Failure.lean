import CliParity.Proofs.Files.Changes
import CliParity.Proofs.Publication.Outcome

/-!
# What a failed publication leaves

A publication stops where a source cannot be loaded, and then nothing was written
(`run_publish_of_dispatcher_error`, `run_publish_of_header_error`). Saving a file stops in front of
the file or at it, with directories made and nothing else (`Saves`, `dirsMade_of_saves_error`). The
module is saved beside the document, where all directories are there (`makeParent_again`), so if the
module fails, what is left is what a publication without a module leaves
(`failure_damages_nothing`).
-/

set_option autoImplicit false

namespace CliParity.Publication

open CliParity.Tree

variable {t t₁ t' : Tree} {p q : Path} {text : String} {here there : Location}
  {fetch : String → Except String String} {s : Settings} {registry : Registry} {f : Failure}

/-! ## Saving a file -/

/-- The place is on the way to the directory that a file will be in. -/
def OnParentWay (p : Path) (there : Location) : Prop :=
  ∃ parent, p.parent? = some parent ∧ OnWay [] parent.steps there

theorem dirsMade_makeParent (p : Path) (t : Tree) :
    DirsMade (OnParentWay p) t ((makeParent p : StateM Tree _).run t).2 := by
  unfold makeParent
  split
  · exact .refl _ t
  · rename_i parent hp
    split
    · exact .refl _ t
    · have hd : DirsMade (OnParentWay p) t (t.createDirs parent).2 := by
        apply (dirsMade_createDirs t parent).mono
        intro there hw
        exact ⟨parent, hp, hw⟩
      rw [run_bind, run_createDirs]
      split <;> exact hd

theorem makeParent_eq_error (h : (makeParent p : StateM Tree _).run t = (.error f, t')) :
    ∃ parent cause, p.parent? = some parent ∧ f = .createDirs parent cause := by
  unfold makeParent at h
  cases hp : p.parent? with
  | none =>
    rw [hp] at h
    cases h
  | some parent =>
    rw [hp] at h
    by_cases hroot : parent.text = ""
    · simp only [if_pos hroot] at h
      cases h
    · simp only [if_neg hroot] at h
      rw [run_bind, run_createDirs] at h
      split at h
      · cases h
      · rename_i cause _
        cases h
        exact ⟨parent, cause, rfl, rfl⟩

/-- Where the directory of one file was made, that of another one beside it is there. -/
theorem makeParent_again (h : (makeParent p : StateM Tree _).run t = (.ok (), t₁))
    (hk : KeepsDirs t₁ t') (hq : q.parent? = p.parent?) :
    (makeParent q : StateM Tree _).run t' = (.ok (), t') := by
  unfold makeParent at h ⊢
  rw [hq]
  cases hp : p.parent? with
  | none => rfl
  | some parent =>
    rw [hp] at h
    by_cases hroot : parent.text = ""
    · simp only [if_pos hroot]
      rfl
    · simp only [if_neg hroot] at h ⊢
      rw [run_bind, run_createDirs] at h ⊢
      cases hc : t.createDirs parent with
      | mk result made =>
        rw [hc] at h
        cases result with
        | error cause => cases h
        | ok _ =>
          cases h
          rw [createDirs_again hc hk]
          rfl

/-- What saving a file does: the directory is not made, or the file is not written, or it is. -/
inductive Saves (p : Path) (text : String) (t : Tree) : Except Failure Unit × Tree → Prop
  | unmade {f : Failure} {t' : Tree} (h : (makeParent p : StateM Tree _).run t = (.error f, t')) :
      Saves p text t (.error f, t')
  | unwritten {cause : FileError} {t' : Tree}
      (h : (makeParent p : StateM Tree _).run t = (.ok (), t'))
      (hw : t'.write p text.toUTF8 = .error cause) : Saves p text t (.error (.write p cause), t')
  | written {t₁ t' : Tree} (h : (makeParent p : StateM Tree _).run t = (.ok (), t₁))
      (hw : t₁.write p text.toUTF8 = .ok t') : Saves p text t (.ok (), t')

theorem saves_run (p : Path) (text : String) (t : Tree) :
    Saves p text t ((save p text : StateM Tree _).run t) := by
  unfold save
  rw [run_bind]
  cases h : (makeParent p : StateM Tree _).run t with
  | mk result t₁ =>
    cases result with
    | error f => exact .unmade h
    | ok _ =>
      simp only
      rw [run_bind, run_writeText, writeText]
      cases hw : t₁.write p text.toUTF8 with
      | error cause => exact .unwritten h hw
      | ok t' => exact .written h hw

theorem saves_of_run {result : Except Failure Unit}
    (h : (save p text : StateM Tree _).run t = (result, t')) : Saves p text t (result, t') := by
  rw [← h]
  exact saves_run p text t

/-- Where a file is not saved, directories were made at most. -/
theorem dirsMade_of_saves_error (h : Saves p text t (.error f, t')) :
    DirsMade (OnParentWay p) t t' := by
  have hd := dirsMade_makeParent p t
  cases h with
  | unmade h => rwa [h] at hd
  | unwritten h _ => rwa [h] at hd

theorem failure_of_saves_error (h : Saves p text t (.error f, t')) :
    (∃ parent cause, p.parent? = some parent ∧ f = .createDirs parent cause) ∨
      ∃ cause, f = .write p cause := by
  cases h with
  | unmade h => exact .inl (makeParent_eq_error h)
  | @unwritten cause _ _ _ => exact .inr ⟨cause, rfl⟩

/-- A file that was saved is found at its place, and the other places are as they were, but for the
directories. -/
theorem frame_of_saves (h : Saves p text t (.ok (), t')) :
    ∃ here, t'.locate p = .ok here ∧ ∀ there, writeLocation there ≠ writeLocation here →
      KeptOrMade (OnParentWay p) t t' there := by
  cases h with
  | @written t₁ _ h hw =>
    have hd := dirsMade_makeParent p t
    rw [h] at hd
    have hk := keepsDirs_of_write hw
    obtain ⟨here, hp, -, -, -, rfl⟩ := write_eq_ok hw
    refine ⟨here, locate_of_keepsDirs hk hp, ?_⟩
    intro there hne
    unfold KeptOrMade
    rw [entry?_put_of_ne t₁ _ hne]
    exact hd there

/-- Beside a file that was saved, another one fails only at the write, which changes nothing. -/
theorem saves_error_beside {text' : String} (h : Saves p text t (.ok (), t₁))
    (hq : q.parent? = p.parent?) (h' : Saves q text' t₁ (.error f, t')) :
    t' = t₁ ∧ ∃ cause, f = .write q cause := by
  cases h with
  | written hmade hw =>
    have hagain := makeParent_again hmade (keepsDirs_of_write hw) hq
    cases h' with
    | unmade hu =>
      rw [hagain] at hu
      cases hu
    | @unwritten cause _ hu _ =>
      rw [hagain] at hu
      cases hu
      exact ⟨rfl, cause, rfl⟩

/-- The module fails only at its write, since its directory is the document's. -/
theorem module_error_of_document {text' : String}
    (hdoc : (save s.output text : StateM Tree _).run t = (.ok (), t₁))
    (hmod : (save s.typescriptPath text' : StateM Tree _).run t₁ = (.error f, t')) :
    t' = t₁ ∧ ∃ cause, f = .write s.typescriptPath cause := by
  obtain ⟨_, -, hw⟩ := save_eq_ok hdoc
  obtain ⟨-, -, -, -, hstep, -⟩ := write_eq_ok hw
  have hparent : s.typescriptPath.parent? = s.output.parent? :=
    Path.parent?_withExtension (by decide) hstep
  exact saves_error_beside (saves_of_run hdoc) hparent (saves_of_run hmod)

/-! ## Loading the sources -/

theorem run_publish_of_dispatcher_error
    (h : ((load fetch s.dispatcher : StateM Tree _).run t).1 = .error f) :
    (publish fetch s : StateM Tree _).run t = (.error f, t) := by
  rw [publish, run_bind, load_keeps, h]
  rfl

theorem run_publish_of_header_error {dispatcher : String}
    (hd : ((load fetch s.dispatcher : StateM Tree _).run t).1 = .ok dispatcher)
    (h : ((load fetch s.header : StateM Tree _).run t).1 = .error f) :
    (publish fetch s : StateM Tree _).run t = (.error f, t) := by
  rw [publish, run_bind, load_keeps, hd]
  simp only
  rw [run_bind, load_keeps, h]
  rfl

/-- Both sources are loaded in front of all else. -/
theorem run_publish {dispatcher header : String}
    (hd : ((load fetch s.dispatcher : StateM Tree _).run t).1 = .ok dispatcher)
    (hh : ((load fetch s.header : StateM Tree _).run t).1 = .ok header) :
    (publish fetch s : StateM Tree _).run t =
      (saveRegistry s (registryOf s dispatcher header) : StateM Tree _).run t := by
  rw [publish, run_bind, load_keeps, hd]
  simp only
  rw [run_bind, load_keeps, hh]

/-! ## Saving the registry -/

/-- The document is not saved, or it is and the module is not. -/
theorem saveRegistry_eq_error
    (h : (saveRegistry s registry : StateM Tree _).run t = (.error f, t')) :
    (save s.output registry.render : StateM Tree _).run t = (.error f, t') ∨
    ∃ t₁, (save s.output registry.render : StateM Tree _).run t = (.ok (), t₁) ∧
      s.typescript = true ∧
      (save s.typescriptPath registry.listing : StateM Tree _).run t₁ = (.error f, t') := by
  rw [saveRegistry, run_bind] at h
  cases hd : (save s.output registry.render : StateM Tree _).run t with
  | mk result t₁ =>
    rw [hd] at h
    cases result with
    | error f' =>
      cases h
      exact .inl rfl
    | ok _ =>
      simp only at h
      split at h
      · rename_i hts
        rw [run_bind] at h
        cases hm : (save s.typescriptPath registry.listing : StateM Tree _).run t₁ with
        | mk result' t₂ =>
          rw [hm] at h
          cases result' with
          | error f' =>
            cases h
            exact .inr ⟨t₁, rfl, hts, hm⟩
          | ok _ => cases h
      · cases h

theorem run_saveRegistry_of_document_error
    (h : (save s.output registry.render : StateM Tree _).run t = (.error f, t')) :
    (saveRegistry s registry : StateM Tree _).run t = (.error f, t') := by
  rw [saveRegistry, run_bind, h]
  rfl

/-- Without a module the document is all that is saved. -/
theorem run_saveRegistry_document (hts : s.typescript = false)
    (h : (save s.output registry.render : StateM Tree _).run t = (.ok (), t')) :
    (saveRegistry s registry : StateM Tree _).run t = (.ok ⟨registry, s.output, none⟩, t') := by
  rw [saveRegistry, run_bind, h]
  simp only [hts]
  rfl

/-- **A failed publication damages nothing.** Where a source cannot be loaded, the tree is as it
was, and the dispatcher's error comes first. Where the document cannot be saved, missing directories
on the way to it were made at most. Where only the module cannot be written, what is left is what a
publication without a module leaves: apart from directories the only change is the document, and it
is complete.

In a tree a write fails only because of the path, and before anything is written. A permission that
is refused is none of the failures here, nor is a write that breaks off. -/
theorem failure_damages_nothing
    (h : (publish fetch s : StateM Tree _).run t = (.error f, t')) :
    (∀ e, ((load fetch s.dispatcher : StateM Tree _).run t).1 = .error e → f = e ∧ t' = t) ∧
    (∀ e, ((load fetch s.header : StateM Tree _).run t).1 = .error e →
      t' = t ∧ ∀ dispatcher,
        ((load fetch s.dispatcher : StateM Tree _).run t).1 = .ok dispatcher → f = e) ∧
    ∀ dispatcher header,
      ((load fetch s.dispatcher : StateM Tree _).run t).1 = .ok dispatcher →
      ((load fetch s.header : StateM Tree _).run t).1 = .ok header →
      ((((∃ parent cause, s.output.parent? = some parent ∧ f = .createDirs parent cause) ∨
          ∃ cause, f = .write s.output cause) ∧
        (publish fetch { s with typescript := false } : StateM Tree _).run t = (.error f, t') ∧
        DirsMade (OnParentWay s.output) t t') ∨
      (s.typescript = true ∧ (∃ cause, f = .write s.typescriptPath cause) ∧
        (publish fetch { s with typescript := false } : StateM Tree _).run t =
          (.ok ⟨registryOf s dispatcher header, s.output, none⟩, t') ∧
        t'.readText s.output = .ok (registryOf s dispatcher header).render ∧
        ∃ here, t'.locate s.output = .ok here ∧
          ∀ there, writeLocation there ≠ writeLocation here →
            KeptOrMade (OnParentWay s.output) t t' there)) := by
  refine ⟨?_, ?_, ?_⟩
  · intro e he
    rw [run_publish_of_dispatcher_error he] at h
    cases h
    exact ⟨rfl, rfl⟩
  · intro e he
    cases hd : ((load fetch s.dispatcher : StateM Tree _).run t).1 with
    | error e' =>
      rw [run_publish_of_dispatcher_error hd] at h
      cases h
      exact ⟨rfl, fun _ h => by cases h⟩
    | ok dispatcher =>
      rw [run_publish_of_header_error hd he] at h
      cases h
      exact ⟨rfl, fun _ _ => rfl⟩
  · intro dispatcher header hd hh
    rw [run_publish hd hh] at h
    have hrun := run_publish (s := { s with typescript := false }) hd hh
    rcases saveRegistry_eq_error h with hdoc | ⟨t₁, hdoc, hts, hmod⟩
    · have hsaves := saves_of_run hdoc
      refine .inl ⟨failure_of_saves_error hsaves, ?_, dirsMade_of_saves_error hsaves⟩
      rw [hrun]
      exact run_saveRegistry_of_document_error hdoc
    · obtain ⟨rfl, hf⟩ := module_error_of_document hdoc hmod
      refine .inr ⟨hts, hf, ?_, readText_of_save hdoc, frame_of_saves (saves_of_run hdoc)⟩
      rw [hrun]
      exact run_saveRegistry_document rfl hdoc

/-- Settings that ask for a module beside a document without an extension. -/
def moduleBeside : Settings := { outputNamedAsModule with output := ⟨"x"⟩ }

/-- A tree in which a directory has the module's name. -/
def moduleTaken : Tree := empty.put ["x.ts"] .dir

/-- The document is left, complete, where the module cannot be written. -/
theorem document_without_module : ∃ t',
    (publish (fun _ => .ok "") moduleBeside : StateM Tree _).run moduleTaken =
      (.error (.write ⟨"x.ts"⟩ .isDirectory), t') ∧
    t'.readText ⟨"x"⟩ = .ok (registryOf moduleBeside "" "").render ∧
    t'.entry? ["x.ts"] = some .dir := by
  have hresult :
      ((publish (fun _ => .ok "") moduleBeside : StateM Tree _).run moduleTaken).1 =
        .error (.write ⟨"x.ts"⟩ .isDirectory) := by decide +kernel
  have hrun := Prod.ext hresult rfl
  obtain ⟨-, -, hsaved⟩ := failure_damages_nothing hrun
  rcases hsaved "" "" rfl rfl with ⟨⟨_, _, _, h⟩ | ⟨_, h⟩, -⟩ | ⟨-, -, -, hread, here, hl, hkept⟩
  · cases h
  · exact absurd (Failure.write.inj h).1 (by decide)
  · refine ⟨_, hrun, hread, ?_⟩
    have hx : ((publish (fun _ => .ok "") moduleBeside : StateM Tree _).run moduleTaken).2.locate
        ⟨"x"⟩ = .ok ["x"] := by decide +kernel
    cases hx.symm.trans hl
    have hdir : moduleTaken.entry? ["x.ts"] = some .dir := rfl
    rcases hkept ["x.ts"] (by decide) with hsame | ⟨hnone, -, -⟩
    · exact hsame.trans hdir
    · rw [hdir] at hnone
      cases hnone

end CliParity.Publication
