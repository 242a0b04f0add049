import CliParity.Files.Path
import CliParity.Proofs.Text.Lines
import CliParity.Proofs.Text.Occurrence
import Mathlib.Data.List.TakeWhile

/-!
# The front and the name of a path

A path splits into a front, which is empty or ends in a slash, and a name without slashes
(`SplitsAs`). Another extension gives a path with the same front (`exists_splitsAs`), and so with
the same parent (`parent?_withExtension`). A path that does not end in a step leads through the
steps of its front to its name (`SplitsAs.steps_eq`).
-/

set_option autoImplicit false

namespace CliParity.Path

open Text

/-- The path is a front, empty or up to a slash, and a name. -/
structure SplitsAs (p : Path) (front name : List Char) : Prop where
  text : p.text.toList = front ++ name
  front_end : front = [] ∨ ∃ dir, front = dir ++ ['/']
  no_slash : '/' ∉ name

/-- The path names a file with an extension: the name goes on in front of the point. -/
def HasExtension (p : Path) (extension : String) : Prop :=
  ∃ front base, p.SplitsAs front (base ++ '.' :: extension.toList) ∧ base ≠ []

/-- The steps that the parts of a front are. -/
def frontSteps (front : List Char) : List String :=
  ((front.splitOn '/').dropLast.filter fun part => !(part.isEmpty || part == ['.'])).map
    String.ofList

section
variable {p q : Path} {front name name' : List Char}

/-! ## Splitting -/

theorem takeWhile_ne_slash (s : List Char) : '/' ∉ s.takeWhile (· != '/') := fun h => by
  simpa using List.mem_takeWhile_imp h

theorem dropWhile_ne_slash (s : List Char) :
    s.dropWhile (· != '/') = [] ∨ ∃ rest, s.dropWhile (· != '/') = '/' :: rest := by
  cases h : s.dropWhile (· != '/') with
  | nil => exact .inl rfl
  | cons c rest =>
    have hc := List.head?_dropWhile_not (· != '/') s
    rw [h] at hc
    exact .inr ⟨rest, by simpa using hc⟩

theorem stem_subset {c : Char} (h : c ∈ stem name) : c ∈ name := by
  rw [stem] at h
  split at h
  · rename_i front after hc
    split at h
    · exact h
    · rw [cutLast?_eq_append hc]
      simp [h]
  · exact h

theorem no_slash_extendName {extension : List Char} (hn : '/' ∉ name) (he : '/' ∉ extension) :
    '/' ∉ extendName name extension := by
  rw [extendName]
  split
  · decide
  · simpa [he] using mt stem_subset hn

/-- A path with another extension differs in its name only. -/
theorem exists_splitsAs (p : Path) : ∃ front name, p.SplitsAs front name ∧
    ∀ extension : String, '/' ∉ extension.toList →
      (p.withExtension extension).SplitsAs front (extendName name extension.toList) := by
  have hf : ((p.text.toList.reverse.dropWhile (· != '/')).reverse = [] ∨
      ∃ dir, (p.text.toList.reverse.dropWhile (· != '/')).reverse = dir ++ ['/']) := by
    rcases dropWhile_ne_slash p.text.toList.reverse with h | ⟨rest, h⟩
    · exact .inl (by rw [h, List.reverse_nil])
    · exact .inr ⟨rest.reverse, by rw [h, List.reverse_cons]⟩
  have hn : '/' ∉ (p.text.toList.reverse.takeWhile (· != '/')).reverse := by
    simpa using takeWhile_ne_slash p.text.toList.reverse
  refine ⟨_, _, ⟨?_, hf, hn⟩, fun extension he => ⟨?_, hf, no_slash_extendName hn he⟩⟩
  · rw [← List.reverse_append, List.takeWhile_append_dropWhile, List.reverse_reverse]
  · rw [withExtension, String.toList_ofList]

/-! ## Steps -/

theorem SplitsAs.parts_eq (h : p.SplitsAs front name) :
    p.parts = (front.splitOn '/').dropLast ++ [name] := by
  rw [parts, h.text]
  rcases h.front_end with rfl | ⟨dir, rfl⟩
  · simpa using List.splitOn_eq_singleton h.no_slash
  · rw [List.append_assoc, List.singleton_append, List.splitOn_append_cons_self,
      List.splitOn_append_cons_self, List.splitOn_eq_singleton h.no_slash, List.splitOn_nil,
      List.dropLast_concat]

/-- A path that does not end in a step has a name that leads somewhere. -/
theorem SplitsAs.name_ne (h : p.SplitsAs front name) (he : p.endsInStep = false) :
    name ≠ [] ∧ name ≠ ['.'] ∧ name ≠ ['.', '.'] := by
  rw [endsInStep, h.parts_eq, List.getLast?_concat] at he
  simpa [and_assoc] using he

theorem endsInPoint_of_endsInStep (h : p.endsInStep = false) : p.endsInPoint = false := by
  obtain ⟨front, name, hs, -⟩ := exists_splitsAs p
  obtain ⟨hne, hpoint, -⟩ := hs.name_ne h
  simp [endsInPoint, hs.parts_eq, hne, hpoint]

theorem SplitsAs.steps_eq (h : p.SplitsAs front name) (he : p.endsInStep = false) :
    p.steps = frontSteps front ++ [String.ofList name] := by
  obtain ⟨h₁, h₂, -⟩ := h.name_ne he
  rw [steps, h.parts_eq, List.filter_append, List.map_append, frontSteps]
  simp [h₁, h₂]

/-- A step has a name, which holds no slash. -/
theorem of_mem_steps {step : String} (h : step ∈ p.steps) : step ≠ "" ∧ '/' ∉ step.toList := by
  obtain ⟨part, hp, rfl⟩ := List.mem_map.1 h
  obtain ⟨hp, hf⟩ := List.mem_filter.1 hp
  rw [String.toList_ofList]
  refine ⟨?_, not_mem_of_mem_splitOn hp⟩
  intro he
  have hpart : part = [] := by simpa using congrArg String.toList he
  simp [hpart] at hf

theorem SplitsAs.eq_iff (hp : p.SplitsAs front name) (hq : q.SplitsAs front name') :
    p = q ↔ name = name' := by
  constructor
  · rintro rfl
    exact List.append_cancel_left (hp.text.symm.trans hq.text)
  · rintro rfl
    obtain ⟨p⟩ := p
    obtain ⟨q⟩ := q
    exact congrArg Path.mk (String.toList_inj.1 (hp.text.trans hq.text.symm))

theorem SplitsAs.unique {front' : List Char} (h : p.SplitsAs front name)
    (h' : p.SplitsAs front' name') : front = front' ∧ name = name' := by
  have hn : name = name' := by
    have hp := congrArg List.getLast? (h.parts_eq.symm.trans h'.parts_eq)
    simpa using hp
  subst hn
  exact ⟨List.append_cancel_right (h.text.symm.trans h'.text), rfl⟩

/-! ## Extensions -/

theorem stem_append {base extension : List Char} (hb : base ≠ []) (he : '.' ∉ extension) :
    stem (base ++ '.' :: extension) = base := by
  have hc : cutLast? ['.'] (base ++ '.' :: extension) = some (base, extension) :=
    (cutLast?_eq_some_iff (by simp) (by decide)).2
      ⟨by simp, fun hi => he (hi.subset List.mem_cons_self)⟩
  rw [stem, hc]
  simp [hb]

theorem stem_ne_nil (h : name ≠ []) : stem name ≠ [] := by
  rw [stem]
  split
  · split
    · exact h
    · simp_all
  · exact h

theorem extendName_ne (h : name ≠ []) (extension : List Char) :
    extendName name extension ≠ [] ∧ extendName name extension ≠ ['.'] := by
  obtain ⟨c, base, hs⟩ := List.exists_cons_of_ne_nil (stem_ne_nil h)
  unfold extendName
  split
  · decide
  · simp [hs]

/-- A path stays as it is with the extension that it has, and with no other. -/
theorem withExtension_eq_self_iff {extension : String} (hslash : '/' ∉ extension.toList)
    (hpoint : '.' ∉ extension.toList) (hp : p.endsInStep = false)
    (he : (p.withExtension extension).endsInStep = false) :
    p.withExtension extension = p ↔ p.HasExtension extension := by
  obtain ⟨front, name, hs, hext⟩ := exists_splitsAs p
  have hs' := hext extension hslash
  have hstem : stem name ≠ ['.'] := fun hstem => by
    refine (hs'.name_ne he).2.2 ?_
    rw [extendName, if_pos hstem]
  rw [hs'.eq_iff hs, extendName, if_neg hstem]
  constructor
  · intro hname
    exact ⟨front, stem name, hname.symm ▸ hs, stem_ne_nil (hs.name_ne hp).1⟩
  · rintro ⟨front', base, hb, hne⟩
    obtain ⟨-, rfl⟩ := hs.unique hb
    rw [stem_append hne hpoint]

/-! ## Parents -/

/-- Where the last part is a name, nothing is trimmed off it. -/
theorem trimSteps_reverse_append (hslash : '/' ∉ name) (hpoint : name ≠ ['.']) (hne : name ≠ []) :
    trimSteps (name.reverse ++ front.reverse) = name.reverse ++ front.reverse := by
  obtain ⟨c, s, hr⟩ := List.exists_cons_of_ne_nil (mt List.reverse_eq_nil_iff.1 hne)
  have hmem : ∀ d ∈ c :: s, d ≠ '/' := by
    intro d hd he
    rw [← hr, List.mem_reverse] at hd
    exact hslash (he ▸ hd)
  rw [hr, List.cons_append, trimSteps]
  · intro d t he
    rw [List.cons.injEq] at he
    exact hmem c List.mem_cons_self he.1
  · intro t he
    rw [List.cons.injEq] at he
    obtain ⟨hc, ht⟩ := he
    cases s with
    | nil =>
      -- a single point in front of a slash is all that would go
      have hn := congrArg List.reverse hr
      rw [List.reverse_reverse, hc] at hn
      exact hpoint hn
    | cons d s =>
      rw [List.cons_append, List.cons.injEq] at ht
      exact hmem d (by simp) ht.1

/-- The parent is what the front leads to, whatever the name. -/
theorem SplitsAs.parent?_eq (h : p.SplitsAs front name) (hne : name ≠ []) (hpoint : name ≠ ['.']) :
    p.parent? = some ⟨String.ofList (trimSteps front.reverse).reverse⟩ := by
  have hdrop : (name.reverse ++ front.reverse).dropWhile (· != '/') = front.reverse := by
    rw [List.dropWhile_append_of_pos]
    · rcases h.front_end with rfl | ⟨dir, rfl⟩ <;> simp
    · intro c hc
      have hn : c ≠ '/' := by
        rintro rfl
        exact h.no_slash (List.mem_reverse.1 hc)
      simpa using hn
  obtain ⟨c, s, hr⟩ := List.exists_cons_of_ne_nil (mt List.reverse_eq_nil_iff.1 hne)
  have hc : c ≠ '/' := by
    rintro rfl
    exact h.no_slash (List.mem_reverse.1 (hr ▸ List.mem_cons_self))
  unfold parent?
  rw [h.text, List.reverse_append, trimSteps_reverse_append h.no_slash hpoint hne]
  split
  · simp_all
  · simp_all
  · rw [hdrop]

theorem parent?_withExtension {extension : String} (he : '/' ∉ extension.toList)
    (hp : p.endsInStep = false) : (p.withExtension extension).parent? = p.parent? := by
  obtain ⟨front, name, hs, hext⟩ := exists_splitsAs p
  obtain ⟨hne, hpoint, -⟩ := hs.name_ne hp
  obtain ⟨hne', hpoint'⟩ := extendName_ne hne extension.toList
  rw [hs.parent?_eq hne hpoint, (hext extension he).parent?_eq hne' hpoint']

end

end CliParity.Path
