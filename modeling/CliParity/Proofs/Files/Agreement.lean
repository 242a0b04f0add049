import CliParity.Proofs.Files.Changes

/-!
# Trees that agree on some places

Steps lead through the places that their beginnings name (`OnWay`). So a walk, and the making of
directories, depend only on what is there (`AgreeOn.walk_eq`, `AgreeOn.makeDirs_alike`), and a
program that does no more than that and write at the end of the way does the same in trees that
agree on it (`LocalTo`).
-/

set_option autoImplicit false

namespace CliParity.Tree

variable {t t₁ t₂ : Tree} {p : Path} {here there : Location} {way : Location → Prop}
  {steps : List String}

/-- The trees hold the same at some places. -/
def AgreeOn (way : Location → Prop) (t₁ t₂ : Tree) : Prop :=
  ∀ here, way here → t₁.entry? here = t₂.entry? here

/-! ## Steps -/

namespace AgreeOn

theorem refl (way : Location → Prop) (t : Tree) : AgreeOn way t t := fun _ _ => rfl

theorem lookup_eq (h : AgreeOn way t₁ t₂) (hw : way here) : t₁.lookup here = t₂.lookup here := by
  rcases lookup_cases here with ⟨e, hl⟩ | hl
  · rw [hl, hl]
  · rw [hl, hl, h here hw]

theorem put (h : AgreeOn way t₁ t₂) (here : Location) (e : Entry) :
    AgreeOn way (t₁.put here e) (t₂.put here e) := by
  intro there hw
  cases there with
  | nil => rfl
  | cons name above =>
    simp only [entry?_cons, Tree.put, OrderedMap.get?_insert]
    split
    · rfl
    · exact h (name :: above) hw

/-- Walks through places on which the trees agree lead to the same place. -/
theorem walk_eq (h : AgreeOn way t₁ t₂) (hs : ∀ there, OnWay here steps there → way there) :
    t₁.walk here steps = t₂.walk here steps := by
  induction steps generalizing here with
  | nil => rfl
  | cons step rest ih =>
    have hrest := ih fun there hw => hs there hw.cons
    rw [walk, walk, h.lookup_eq (hs here ⟨[], List.nil_prefix, rfl⟩)]
    split
    · rfl
    · rfl
    · rfl
    · split
      · rwa [if_pos ‹_›] at hrest
      · rwa [if_neg ‹_›] at hrest

theorem locate_eq (h : AgreeOn way t₁ t₂) (hs : ∀ there, OnWay [] p.steps there → way there) :
    t₁.locate p = t₂.locate p := by
  rw [locate, locate, h.walk_eq hs]

/-- The same directories are made. -/
theorem makeDirs_alike (h : AgreeOn way t₁ t₂) (made : Bool)
    (hs : ∀ there, OnWay here steps there → way there) :
    (t₁.makeDirs here made steps).1 = (t₂.makeDirs here made steps).1 ∧
      AgreeOn way (t₁.makeDirs here made steps).2 (t₂.makeDirs here made steps).2 := by
  induction steps generalizing t₁ t₂ here made with
  | nil => exact ⟨rfl, h⟩
  | cons step rest ih =>
    have hcons : ∀ there, OnWay (if step = ".." then here.tail else step :: here) rest there →
        way there := fun there hw => hs there hw.cons
    rw [makeDirs, makeDirs]
    by_cases hup : step = ".."
    · rw [if_pos hup] at hcons ⊢
      rw [if_pos hup]
      exact ih h made hcons
    · rw [if_neg hup] at hcons ⊢
      rw [if_neg hup, h.lookup_eq (hcons (step :: here) ⟨[], List.nil_prefix, rfl⟩)]
      split
      · exact ⟨rfl, h⟩
      · exact ih h made hcons
      · exact ⟨rfl, h⟩
      · exact ih (h.put (step :: here) .dir) true hcons

end AgreeOn

/-- The end of a walk is on its way. -/
theorem onWay_of_walk (h : t.walk here steps = .ok there) : OnWay here steps there := by
  induction steps generalizing here with
  | nil =>
    cases Except.ok.inj h
    exact ⟨[], List.nil_prefix, rfl⟩
  | cons step rest ih =>
    obtain ⟨-, hw⟩ := walk_cons_eq_ok_iff.1 h
    exact (ih hw).cons

theorem onWay_of_locate (h : t.locate p = .ok here) : OnWay [] p.steps here :=
  onWay_of_walk (locate_eq_ok_iff.1 h).2.2

/-- A write fails alike, or puts the same file in the same place. -/
theorem AgreeOn.write_cases (h : AgreeOn way t₁ t₂)
    (hs : ∀ there, OnWay [] p.steps there → way there) (content : ByteArray) :
    (∃ e, t₁.write p content = .error e ∧ t₂.write p content = .error e) ∨
      ∃ here, t₁.write p content = .ok (t₁.put here (.file content)) ∧
        t₂.write p content = .ok (t₂.put here (.file content)) := by
  rw [write, write, h.locate_eq hs]
  cases hl : t₂.locate p with
  | error e => exact .inl ⟨e, rfl, rfl⟩
  | ok here =>
    simp only [h.lookup_eq (hs here (onWay_of_locate hl))]
    split
    · exact .inl ⟨_, rfl, rfl⟩
    cases t₂.lookup here with
    | error e => exact .inl ⟨e, rfl, rfl⟩
    | ok found =>
      by_cases hpoint : p.endsInPoint = true
      · left
        rcases found with _ | content' | _ <;> simp [hpoint]
      · rcases found with _ | content' | _
        · exact .inr ⟨here, by simp [hpoint], by simp [hpoint]⟩
        · exact .inr ⟨here, by simp [hpoint], by simp [hpoint]⟩
        · exact .inl ⟨_, rfl, rfl⟩

/-! ## Programs -/

/-- What the program gives, and what it leaves at some places, depends only on what was there. -/
def LocalTo {α : Type} (way : Location → Prop) (x : StateM Tree α) : Prop :=
  ∀ t₁ t₂, AgreeOn way t₁ t₂ →
    (x.run t₁).1 = (x.run t₂).1 ∧ AgreeOn way (x.run t₁).2 (x.run t₂).2

section
variable {α β : Type}

theorem localTo_pure (way : Location → Prop) (a : α) : LocalTo way (pure a : StateM Tree α) :=
  fun _ _ h => ⟨rfl, h⟩

theorem LocalTo.bind {x : StateM Tree α} {f : α → StateM Tree β} (hx : LocalTo way x)
    (hf : ∀ a, LocalTo way (f a)) : LocalTo way (x >>= f) := by
  intro t₁ t₂ h
  obtain ⟨hresult, hleft⟩ := hx t₁ t₂ h
  rw [run_bind, run_bind, hresult]
  exact hf _ _ _ hleft

theorem localTo_createDirs (hs : ∀ there, OnWay [] p.steps there → way there) :
    LocalTo way (FileStore.createDirs p : StateM Tree _) := by
  intro t₁ t₂ h
  rw [run_createDirs, run_createDirs, createDirs, createDirs]
  split
  · exact ⟨rfl, h⟩
  · exact h.makeDirs_alike false hs

theorem localTo_writeText (hs : ∀ there, OnWay [] p.steps there → way there) (text : String) :
    LocalTo way (FileStore.writeText p text : StateM Tree _) := by
  intro t₁ t₂ h
  rw [run_writeText, run_writeText, writeText, writeText]
  rcases h.write_cases hs text.toUTF8 with ⟨e, hw₁, hw₂⟩ | ⟨here, hw₁, hw₂⟩
  · rw [hw₁, hw₂]
    exact ⟨rfl, h⟩
  · rw [hw₁, hw₂]
    exact ⟨rfl, h.put here _⟩

end

end CliParity.Tree
