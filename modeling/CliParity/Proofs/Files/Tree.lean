import CliParity.Files.Tree
import CliParity.Proofs.Files.Path

/-!
# What stays in a tree

A walk depends on directories only, so a tree that keeps the directories of another (`KeepsDirs`)
leads to the same places (`walk_of_keepsDirs`). A write keeps all directories, and making
directories keeps all entries (`Grows`). So what was written is read back (`find_of_write`), and
stays when directories are made (`find_of_grows`) or a file of another name is written beside it
(`find_of_write_beside`).
-/

set_option autoImplicit false

namespace CliParity.Tree

variable {t t' t'' : Tree} {p q : Path} {here there : Location} {content content' : ByteArray}

/-! ## Entries -/

/-- All directories of the first tree are in the second. -/
def KeepsDirs (t t' : Tree) : Prop :=
  ∀ here, t.entry? here = some .dir → t'.entry? here = some .dir

/-- All entries of the first tree are in the second. -/
def Grows (t t' : Tree) : Prop := ∀ here e, t.entry? here = some e → t'.entry? here = some e

theorem Grows.refl (t : Tree) : Grows t t := fun _ _ h => h

theorem Grows.trans (h : Grows t t') (h' : Grows t' t'') : Grows t t'' :=
  fun here e he => h' here e (h here e he)

theorem Grows.keepsDirs (h : Grows t t') : KeepsDirs t t' := fun here => h here .dir

theorem entry?_cons (t : Tree) (name : String) (above : Location) :
    t.entry? (name :: above) = t.get? (writeLocation (name :: above)) := rfl

theorem entry?_put_self (t : Tree) (e : Entry) (h : here ≠ []) :
    entry? (t.put here e) here = some e := by
  obtain ⟨name, above, rfl⟩ := List.exists_cons_of_ne_nil h
  rw [entry?_cons, put, OrderedMap.get?_insert, if_pos rfl]

theorem entry?_put_of_ne (t : Tree) (e : Entry) (h : writeLocation there ≠ writeLocation here) :
    entry? (t.put here e) there = t.entry? there := by
  cases there with
  | nil => rfl
  | cons name above => rw [entry?_cons, put, OrderedMap.get?_insert, if_neg h, entry?_cons]

/-- A place that holds something else is another place. -/
theorem entry?_put_of_entry?_ne (e : Entry) (hh : here ≠ []) (h : t.entry? there ≠ t.entry? here) :
    entry? (t.put here e) there = t.entry? there := by
  cases there with
  | nil => rfl
  | cons name above =>
    obtain ⟨name', above', rfl⟩ := List.exists_cons_of_ne_nil hh
    exact entry?_put_of_ne t e fun hw => h (by rw [entry?_cons, entry?_cons, hw])

theorem ne_nil_of_entry?_ne_dir (h : t.entry? here ≠ some .dir) : here ≠ [] := by
  rintro rfl
  exact h rfl

theorem keepsDirs_put (h : t.entry? here ≠ some .dir) (e : Entry) :
    KeepsDirs t (t.put here e) := fun there ht => by
  have hne : t.entry? there ≠ t.entry? here := fun he => h (he ▸ ht)
  rwa [entry?_put_of_entry?_ne e (ne_nil_of_entry?_ne_dir h) hne]

theorem grows_put (h : t.entry? here = none) (e : Entry) : Grows t (t.put here e) :=
  fun there e' ht => by
    have hd : t.entry? here ≠ some .dir := by simp [h]
    have hne : t.entry? there ≠ t.entry? here := by simp [h, ht]
    rwa [entry?_put_of_entry?_ne e (ne_nil_of_entry?_ne_dir hd) hne]

/-- Where one place can be looked up, it can be in every tree, and its entry is found. -/
theorem lookup_of_lookup {e : Option Entry} (h : t.lookup here = .ok e) :
    t.entry? here = e ∧ ∀ t' : Tree, t'.lookup here = .ok (t'.entry? here) := by
  cases here with
  | nil => exact ⟨Except.ok.inj h, fun t' => rfl⟩
  | cons name above =>
    rw [lookup] at h
    split at h
    · cases h
    · rename_i hl
      exact ⟨Except.ok.inj h, fun t' => by rw [lookup, if_neg hl]⟩

/-! ## Walks -/

theorem walk_cons_eq_ok_iff {step : String} {rest : List String} :
    t.walk here (step :: rest) = .ok there ↔ t.lookup here = .ok (some .dir) ∧
      t.walk (if step = ".." then here.tail else step :: here) rest = .ok there := by
  rw [walk]
  split <;> simp_all
  split <;> rfl

theorem walk_append_eq_ok_iff {steps rest : List String} :
    t.walk here (steps ++ rest) = .ok there ↔
      ∃ mid, t.walk here steps = .ok mid ∧ t.walk mid rest = .ok there := by
  induction steps generalizing here with
  | nil => simp [walk]
  | cons step steps ih =>
    simp only [List.cons_append, walk_cons_eq_ok_iff, ih, and_assoc, exists_and_left]

theorem walk_of_keepsDirs (hk : KeepsDirs t t') {steps : List String}
    (h : t.walk here steps = .ok there) : t'.walk here steps = .ok there := by
  induction steps generalizing here with
  | nil => exact h
  | cons step rest ih =>
    obtain ⟨hl, hw⟩ := walk_cons_eq_ok_iff.1 h
    obtain ⟨he, hl'⟩ := lookup_of_lookup hl
    exact walk_cons_eq_ok_iff.2 ⟨(hl' t').trans (congrArg _ (hk here he)), ih hw⟩

theorem locate_eq_ok_iff : t.locate p = .ok here ↔
    p.fault? = none ∧ p.text ≠ "" ∧ t.walk [] p.steps = .ok here := by
  rw [locate]
  split
  · simp_all
  · split <;> simp_all

theorem locate_of_keepsDirs (hk : KeepsDirs t t') (h : t.locate p = .ok here) :
    t'.locate p = .ok here := by
  rw [locate_eq_ok_iff] at h ⊢
  exact ⟨h.1, h.2.1, walk_of_keepsDirs hk h.2.2⟩

/-- A path that does not end in a step leads from the directory of its front to its name. -/
theorem locate_of_splitsAs {front name : List Char} (hp : p.SplitsAs front name)
    (he : p.endsInStep = false) (h : t.locate p = .ok here) :
    ∃ above, t.walk [] (Path.frontSteps front) = .ok above ∧
      here = String.ofList name :: above := by
  obtain ⟨-, -, hw⟩ := locate_eq_ok_iff.1 h
  rw [hp.steps_eq he] at hw
  obtain ⟨above, ha, hn⟩ := walk_append_eq_ok_iff.1 hw
  obtain ⟨-, hn⟩ := walk_cons_eq_ok_iff.1 hn
  have hname : String.ofList name ≠ ".." := fun hs =>
    (hp.name_ne he).2.2 (by simpa using congrArg String.toList hs)
  rw [if_neg hname, walk, Except.ok.injEq] at hn
  exact ⟨above, ha, hn.symm⟩

theorem writeLocation_cons (name : String) {above : Location} (h : above ≠ []) :
    writeLocation (name :: above) = writeLocation above ++ "/" ++ name := by
  rw [writeLocation, List.reverse_cons,
    String.intercalate_append_of_ne_nil (mt List.reverse_eq_nil_iff.1 h) (List.cons_ne_nil _ _),
    String.intercalate_singleton, writeLocation]

/-- Two names in one directory are written alike only if they are one. -/
theorem name_eq_of_writeLocation {name name' : String} {above : Location}
    (h : writeLocation (name :: above) = writeLocation (name' :: above)) : name = name' := by
  by_cases ha : above = []
  · subst ha
    simpa [writeLocation] using h
  · rw [writeLocation_cons name ha, writeLocation_cons name' ha] at h
    simpa using h

/-! ## Files -/

theorem find_eq_file_iff : t.find p = .ok (.file content) ↔ ∃ here, t.locate p = .ok here ∧
    t.lookup here = .ok (some (.file content)) ∧ p.endsInStep = false := by
  rw [find]
  split
  · simp_all
  · rename_i there hp
    split <;> simp_all
    split <;> simp_all

/-- What a write needs and does. -/
theorem write_eq_ok (h : t.write p content = .ok t') : ∃ here, t.locate p = .ok here ∧
    t.lookup here = .ok (t.entry? here) ∧ t.entry? here ≠ some .dir ∧ p.endsInStep = false ∧
      t' = t.put here (.file content) := by
  rw [write] at h
  split at h
  · cases h
  rename_i here hp
  split at h
  · cases h
  rename_i hs
  cases hl : t.lookup here with
  | error e => simp [hl] at h
  | ok found =>
    obtain ⟨rfl, -⟩ := lookup_of_lookup hl
    refine ⟨here, hp, hl, ?_⟩
    rw [hl] at h
    -- neither a directory nor a path that ends in a point is written
    cases he : t.entry? here with
    | none =>
      simp only [he] at h
      split at h
      · cases h
      · rename_i hpt
        exact ⟨by simp, by simpa [hpt] using hs, (Except.ok.inj h).symm⟩
    | some found =>
      cases found with
      | dir => simp [he] at h
      | file old =>
        simp only [he] at h
        split at h
        · cases h
        · rename_i hpt
          exact ⟨by simp, by simpa [hpt] using hs, (Except.ok.inj h).symm⟩

theorem keepsDirs_of_write (h : t.write p content = .ok t') : KeepsDirs t t' := by
  obtain ⟨here, -, -, hd, -, rfl⟩ := write_eq_ok h
  exact keepsDirs_put hd _

theorem find_of_write (h : t.write p content = .ok t') : t'.find p = .ok (.file content) := by
  have hk := keepsDirs_of_write h
  obtain ⟨here, hp, hl, hd, he, rfl⟩ := write_eq_ok h
  have hs := entry?_put_self t (.file content) (ne_nil_of_entry?_ne_dir hd)
  exact find_eq_file_iff.2 ⟨here, locate_of_keepsDirs hk hp,
    ((lookup_of_lookup hl).2 _).trans (congrArg _ hs), he⟩

theorem find_of_grows (hg : Grows t t') (h : t.find p = .ok (.file content)) :
    t'.find p = .ok (.file content) := by
  obtain ⟨here, hp, hl, he⟩ := find_eq_file_iff.1 h
  obtain ⟨hf, hl'⟩ := lookup_of_lookup hl
  exact find_eq_file_iff.2 ⟨here, locate_of_keepsDirs hg.keepsDirs hp,
    (hl' t').trans (congrArg _ (hg here _ hf)), he⟩

theorem find_of_write_elsewhere (h : t.find p = .ok (.file content))
    (hw : t.write q content' = .ok t')
    (hne : ∀ here there, t.locate p = .ok here → t.locate q = .ok there →
      writeLocation here ≠ writeLocation there) : t'.find p = .ok (.file content) := by
  have hk := keepsDirs_of_write hw
  obtain ⟨here, hp, hl, he⟩ := find_eq_file_iff.1 h
  obtain ⟨hf, hl'⟩ := lookup_of_lookup hl
  obtain ⟨there, hq, -, -, -, rfl⟩ := write_eq_ok hw
  have hs := entry?_put_of_ne t (.file content') (hne here there hp hq)
  exact find_eq_file_iff.2 ⟨here, locate_of_keepsDirs hk hp,
    (hl' _).trans (congrArg _ (hs.trans hf)), he⟩

theorem find_of_write_beside {front name name' : List Char} (h : t.find p = .ok (.file content))
    (hw : t.write q content' = .ok t') (hp : p.SplitsAs front name)
    (hq : q.SplitsAs front name') (hne : p ≠ q) : t'.find p = .ok (.file content) := by
  obtain ⟨-, -, -, hpe⟩ := find_eq_file_iff.1 h
  obtain ⟨-, -, -, -, hqe, -⟩ := write_eq_ok hw
  refine find_of_write_elsewhere h hw fun here there hhere hthere hl => ?_
  obtain ⟨above, ha, rfl⟩ := locate_of_splitsAs hp hpe hhere
  obtain ⟨above', ha', rfl⟩ := locate_of_splitsAs hq hqe hthere
  obtain rfl : above = above' := Except.ok.inj (ha.symm.trans ha')
  exact hne ((hp.eq_iff hq).2 (String.ofList_injective (name_eq_of_writeLocation hl)))

theorem readText_of_find {text : String} (h : t.find p = .ok (.file text.toUTF8)) :
    t.readText p = .ok text := by
  have ht : String.fromUTF8? text.toUTF8 = some text := dif_pos text.isValidUTF8
  rw [readText, h]
  simp only [ht]

theorem find_of_readText {text : String} (h : t.readText p = .ok text) :
    ∃ content, t.find p = .ok (.file content) := by
  unfold readText at h
  split at h
  · cases h
  · cases h
  · exact ⟨_, ‹_›⟩

/-! ## Directories -/

theorem grows_makeDirs (t : Tree) (here : Location) (made : Bool) (steps : List String) :
    Grows t (t.makeDirs here made steps).2 := by
  induction steps generalizing t here made with
  | nil => exact .refl t
  | cons step rest ih =>
    rw [makeDirs]
    split
    · exact ih t here.tail made
    · split
      · exact .refl t
      · exact ih t (step :: here) made
      · exact .refl t
      · rename_i hl
        exact (grows_put (lookup_of_lookup hl).1 .dir).trans (ih _ (step :: here) true)

theorem grows_createDirs (t : Tree) (p : Path) : Grows t (t.createDirs p).2 := by
  rw [createDirs]
  split
  · exact .refl t
  · exact grows_makeDirs t [] false p.steps

/-! ## Trees as stores -/

theorem run_bind {α β : Type} (x : StateM Tree α) (f : α → StateM Tree β) (t : Tree) :
    (x >>= f).run t = (f (x.run t).1).run (x.run t).2 := rfl

theorem run_isPresent (p : Path) (t : Tree) :
    (FileStore.isPresent p : StateM Tree _).run t = (t.isPresent p, t) := rfl

theorem run_readText (p : Path) (t : Tree) :
    (FileStore.readText p : StateM Tree _).run t = (t.readText p, t) := rfl

theorem run_createDirs (p : Path) (t : Tree) :
    (FileStore.createDirs p : StateM Tree _).run t = t.createDirs p := rfl

theorem run_writeText (p : Path) (text : String) (t : Tree) :
    (FileStore.writeText p text : StateM Tree _).run t = t.writeText p text := rfl

theorem writeText_eq_ok_iff {text : String} :
    t.writeText p text = (.ok (), t') ↔ t.write p text.toUTF8 = .ok t' := by
  rw [writeText]
  split <;> simp_all

end CliParity.Tree
