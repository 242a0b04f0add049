import CliParity.Proofs.Files.Tree

/-!
# What changes in a tree

A file that can be read can be written over (`write_of_find`), and then only the paths that lead to
its place lead to something else (`OnlyAt`, `onlyAt_of_write`). Making the directories of a path
puts directories where nothing was, on the way of the path, and keeps all else (`DirsMade`,
`dirsMade_createDirs`); done again it changes nothing (`createDirs_again`).
-/

set_option autoImplicit false

namespace CliParity.Tree

variable {t t' t'' : Tree} {p q : Path} {here there : Location} {content content' : ByteArray}

/-! ## Places as they are written -/

/-- The names of a place are those of steps. -/
def Named (here : Location) : Prop := ∀ name ∈ here, name ≠ "" ∧ '/' ∉ name.toList

theorem named_walk {steps : List String} (hn : Named here)
    (hs : ∀ step ∈ steps, step ≠ "" ∧ '/' ∉ step.toList) (h : t.walk here steps = .ok there) :
    Named there := by
  induction steps generalizing here with
  | nil =>
    cases Except.ok.inj h
    exact hn
  | cons step rest ih =>
    obtain ⟨-, hw⟩ := walk_cons_eq_ok_iff.1 h
    refine ih ?_ (fun s hs' => hs s (List.mem_cons_of_mem step hs')) hw
    intro name hname
    split at hname
    · exact hn name (List.mem_of_mem_tail hname)
    · rcases List.mem_cons.1 hname with rfl | hname
      · exact hs name List.mem_cons_self
      · exact hn name hname

theorem named_locate (h : t.locate p = .ok here) : Named here := by
  obtain ⟨-, -, hw⟩ := locate_eq_ok_iff.1 h
  exact named_walk (fun name hname => by cases hname) (fun _ => Path.of_mem_steps) hw

theorem splitOn_writeLocation (hn : Named here) (hne : here ≠ []) :
    (writeLocation here).toList.splitOn '/' = here.reverse.map String.toList := by
  have hsep : "/".toList = ['/'] := rfl
  rw [writeLocation, String.toList_intercalate, hsep, List.splitOn_intercalate]
  · intro l hl
    obtain ⟨name, hname, rfl⟩ := List.mem_map.1 hl
    exact (hn name (List.mem_reverse.1 hname)).2
  · simpa using hne

/-- No other place is written alike. -/
theorem writeLocation_inj (h : Named here) (h' : Named there) :
    writeLocation here = writeLocation there ↔ here = there := by
  constructor
  · intro hw
    have hempty : ∀ {l : Location}, Named l → writeLocation l = "" → l = [] := by
      intro l hl he
      apply Classical.byContradiction
      intro hne
      have hs := splitOn_writeLocation hl hne
      rw [he] at hs
      obtain ⟨name, hname, hnil⟩ : ∃ name ∈ l.reverse, name.toList = [] := by
        apply List.mem_map.1
        rw [← hs]
        exact List.mem_cons_self
      exact (hl name (List.mem_reverse.1 hname)).1 (by simpa using hnil)
    by_cases hne : here = []
    · subst hne
      exact (hempty h' hw.symm).symm
    by_cases hne' : there = []
    · subst hne'
      exact hempty h hw
    have hs := splitOn_writeLocation h hne
    rw [hw, splitOn_writeLocation h' hne'] at hs
    have hinj : Function.Injective String.toList := fun _ _ => String.toList_injective
    exact (List.reverse_injective (List.map_injective_iff.2 hinj hs)).symm
  · rintro rfl
    rfl

/-! ## Writing over a file -/

/-- The trees have files at the same places, and all else alike. -/
def SameShape (t t' : Tree) : Prop :=
  ∀ here, t'.entry? here = t.entry? here ∨
    ∃ c c', t.entry? here = some (.file c) ∧ t'.entry? here = some (.file c')

theorem entry?_congr (t : Tree) (h : writeLocation here = writeLocation there) (hne : here ≠ [])
    (hne' : there ≠ []) : t.entry? here = t.entry? there := by
  obtain ⟨name, above, rfl⟩ := List.exists_cons_of_ne_nil hne
  obtain ⟨name', above', rfl⟩ := List.exists_cons_of_ne_nil hne'
  rw [entry?_cons, entry?_cons, h]

theorem sameShape_put (h : t.entry? here = some (.file content)) (content' : ByteArray) :
    SameShape t (t.put here (.file content')) := by
  have hd : t.entry? here ≠ some .dir := by simp [h]
  have hne : here ≠ [] := ne_nil_of_entry?_ne_dir hd
  intro there
  by_cases hw : writeLocation there = writeLocation here
  · by_cases hn : there = []
    · subst hn
      exact .inl rfl
    · right
      refine ⟨content, content', (entry?_congr t hw hn hne).trans h, ?_⟩
      rw [entry?_congr _ hw hn hne, entry?_put_self t _ hne]
  · exact .inl (entry?_put_of_ne t _ hw)

/-- A place cannot be looked up in any tree, or can in every one. -/
theorem lookup_cases (here : Location) :
    (∃ e, ∀ t : Tree, t.lookup here = .error e) ∨
      ∀ t : Tree, t.lookup here = .ok (t.entry? here) := by
  cases here with
  | nil => exact .inr fun t => rfl
  | cons name above =>
    by_cases h : name.utf8ByteSize > Path.maxNameSize
    · exact .inl ⟨.nameTooLong, fun t => by rw [lookup, if_pos h]⟩
    · exact .inr fun t => by rw [lookup, if_neg h]

theorem walk_of_sameShape (h : SameShape t t') (here : Location) (steps : List String) :
    t'.walk here steps = t.walk here steps := by
  induction steps generalizing here with
  | nil => rfl
  | cons step rest ih =>
    rw [walk, walk]
    rcases lookup_cases here with ⟨e, hl⟩ | hl
    · rw [hl t, hl t']
    · rw [hl t, hl t']
      rcases h here with he | ⟨c, c', he, he'⟩
      · rw [he, ih, ih]
      · rw [he, he']

theorem locate_of_sameShape (h : SameShape t t') (p : Path) : t'.locate p = t.locate p := by
  rw [locate, locate, walk_of_sameShape h]

/-- The trees differ only in what is at the end of a path. All paths lead to the same places as
before, and those to another place lead to what was there. -/
structure OnlyAt (p : Path) (t t' : Tree) : Prop where
  locate_eq : ∀ q, t'.locate q = t.locate q
  find_eq : ∀ q, t.locate q ≠ t.locate p → t'.find q = t.find q
  entry_eq : ∀ here, t.locate p = .ok here →
    ∀ there, writeLocation there ≠ writeLocation here → t'.entry? there = t.entry? there

/-- A file that can be read can be written over. -/
theorem write_of_find (h : t.find p = .ok (.file content)) (content' : ByteArray) :
    ∃ here, t.locate p = .ok here ∧ t.entry? here = some (.file content) ∧
      t.write p content' = .ok (t.put here (.file content')) := by
  obtain ⟨here, hp, hl, he⟩ := find_eq_file_iff.1 h
  refine ⟨here, hp, (lookup_of_lookup hl).1, ?_⟩
  rw [write, hp]
  simp [he, hl, Path.endsInPoint_of_endsInStep he]

theorem onlyAt_of_write (h : t.find p = .ok (.file content)) (hw : t.write p content' = .ok t') :
    OnlyAt p t t' := by
  obtain ⟨here, hp, he, hw'⟩ := write_of_find h content'
  cases hw.symm.trans hw'
  have hs := sameShape_put he content'
  have hentry : ∀ there, writeLocation there ≠ writeLocation here →
      entry? (t.put here (.file content')) there = t.entry? there :=
    fun _ => entry?_put_of_ne t _
  refine ⟨locate_of_sameShape hs, ?_, ?_⟩
  · intro q hq
    rw [find, find, locate_of_sameShape hs]
    cases hql : t.locate q with
    | error e => rfl
    | ok there =>
      have hne : writeLocation there ≠ writeLocation here := by
        rw [Ne, writeLocation_inj (named_locate hql) (named_locate hp)]
        rintro rfl
        exact hq (hql.trans hp.symm)
      rcases lookup_cases there with ⟨e, hl⟩ | hl
      · simp only [hl]
      · simp only [hl, hentry there hne]
  · intro here' hp'
    cases hp.symm.trans hp'
    exact hentry

/-! ## Making directories -/

/-- The place that steps lead to by their names alone. -/
def resolve (here : Location) (steps : List String) : Location :=
  steps.foldl (fun here step => if step = ".." then here.tail else step :: here) here

/-- The first steps of some lead to the place. -/
def OnWay (here : Location) (steps : List String) (there : Location) : Prop :=
  ∃ front, front <+: steps ∧ writeLocation there = writeLocation (resolve here front)

/-- At the place there is what was there, or a directory on the way in place of nothing. -/
def KeptOrMade (way : Location → Prop) (t t' : Tree) (there : Location) : Prop :=
  t'.entry? there = t.entry? there ∨
    (t.entry? there = none ∧ t'.entry? there = some .dir ∧ way there)

/-- Directories were made on the way, and nothing else was done. -/
def DirsMade (way : Location → Prop) (t t' : Tree) : Prop := ∀ there, KeptOrMade way t t' there

section
variable {way way' : Location → Prop} {steps : List String} {made : Bool}

theorem DirsMade.refl (way : Location → Prop) (t : Tree) : DirsMade way t t := fun _ => .inl rfl

theorem DirsMade.trans (h : DirsMade way t t') (h' : DirsMade way t' t'') :
    DirsMade way t t'' := by
  intro there
  rcases h there with he | ⟨hn, hd, hw⟩
  · rcases h' there with he' | ⟨hn', hd', hw'⟩
    · exact .inl (he'.trans he)
    · exact .inr ⟨he ▸ hn', hd', hw'⟩
  · rcases h' there with he' | ⟨hn', hd', hw'⟩
    · exact .inr ⟨hn, he'.trans hd, hw⟩
    · simp [hd] at hn'

theorem DirsMade.mono (h : DirsMade way t t') (hw : ∀ there, way there → way' there) :
    DirsMade way' t t' := by
  intro there
  rcases h there with he | ⟨hn, hd, hway⟩
  · exact .inl he
  · exact .inr ⟨hn, hd, hw there hway⟩

theorem dirsMade_put (h : t.entry? here = none)
    (hw : ∀ there, writeLocation there = writeLocation here → way there) :
    DirsMade way t (t.put here .dir) := by
  have hd : t.entry? here ≠ some .dir := by simp [h]
  have hne : here ≠ [] := ne_nil_of_entry?_ne_dir hd
  intro there
  by_cases he : writeLocation there = writeLocation here
  · by_cases hn : there = []
    · subst hn
      exact .inl rfl
    · right
      refine ⟨(entry?_congr t he hn hne).trans h, ?_, hw there he⟩
      rw [entry?_congr _ he hn hne, entry?_put_self t _ hne]
  · exact .inl (entry?_put_of_ne t _ he)

theorem OnWay.cons {step : String}
    (h : OnWay (if step = ".." then here.tail else step :: here) steps there) :
    OnWay here (step :: steps) there := by
  obtain ⟨front, hf, hw⟩ := h
  exact ⟨step :: front, (List.prefix_cons_inj step).2 hf, hw⟩

theorem dirsMade_makeDirs (t : Tree) (here : Location) (made : Bool) (steps : List String) :
    DirsMade (OnWay here steps) t (t.makeDirs here made steps).2 := by
  induction steps generalizing t here made with
  | nil => exact .refl _ t
  | cons step rest ih =>
    have hcons : ∀ there, OnWay (if step = ".." then here.tail else step :: here) rest there →
        OnWay here (step :: rest) there := fun _ => OnWay.cons
    rw [makeDirs]
    split
    · rename_i hup
      rw [if_pos hup] at hcons
      exact (ih t here.tail made).mono hcons
    · rename_i hname
      rw [if_neg hname] at hcons
      split
      · exact .refl _ t
      · exact (ih t (step :: here) made).mono hcons
      · exact .refl _ t
      · rename_i hl
        refine DirsMade.trans (dirsMade_put (lookup_of_lookup hl).1 ?_)
          ((ih _ (step :: here) true).mono hcons)
        intro there hw
        exact hcons there ⟨[], List.nil_prefix, hw⟩

theorem dirsMade_createDirs (t : Tree) (p : Path) :
    DirsMade (OnWay [] p.steps) t (t.createDirs p).2 := by
  rw [createDirs]
  split
  · exact .refl _ t
  · exact dirsMade_makeDirs t [] false p.steps

/-- Where all directories were made, they are found as long as they stay. -/
theorem makeDirs_again (h : t.makeDirs here made steps = (.ok (), t')) (hk : KeepsDirs t' t'')
    (made' : Bool) : t''.makeDirs here made' steps = (.ok (), t'') := by
  induction steps generalizing t here made made' with
  | nil => rfl
  | cons step rest ih =>
    rw [makeDirs] at h ⊢
    split at h
    · rename_i hup
      rw [if_pos hup]
      exact ih h made'
    · rename_i hname
      rw [if_neg hname]
      have hgrows : ∀ (u : Tree) m, u.makeDirs (step :: here) m rest = (.ok (), t') →
          Grows u t' := by
        intro u m hu
        have hg := grows_makeDirs u (step :: here) m rest
        rwa [hu] at hg
      -- in either case the directory is there at the end
      have hagain : ∀ (u : Tree) m, u.makeDirs (step :: here) m rest = (.ok (), t') →
          u.entry? (step :: here) = some .dir → t''.lookup (step :: here) = .ok (some .dir) := by
        intro u m hu hd
        rcases lookup_cases (step :: here) with ⟨e, hl⟩ | hl
        · simp [hl] at h
        · rw [hl, hk _ (hgrows u m hu _ _ hd)]
      split at h
      · cases h
      · rename_i hl
        rw [hagain t made h (lookup_of_lookup hl).1]
        exact ih h made'
      · cases h
      · rw [hagain _ true h (entry?_put_self t .dir (List.cons_ne_nil step here))]
        exact ih h made'

theorem createDirs_again (h : t.createDirs p = (.ok (), t')) (hk : KeepsDirs t' t'') :
    t''.createDirs p = (.ok (), t'') := by
  rw [createDirs] at h ⊢
  split at h
  · cases h
  · exact makeDirs_again h hk false

end

end CliParity.Tree
