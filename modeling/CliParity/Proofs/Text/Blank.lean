import CliParity.Proofs.Text.Scan
import CliParity.Text.Digit

/-!
# White space in front of what is read

A reader that skips white space first reads a token behind any `Blanks`, and only there
(`read_skipBlanks_eq_some_iff`, `after?_skipBlanks_eq_some_iff`).
-/

set_option autoImplicit false

namespace CliParity.Text

/-- White space, or none. -/
def Blanks : Type := { s : List Char // s.all isBlank = true }

/-- No white space. -/
def Blanks.none : Blanks := ⟨[], rfl⟩

variable {p s rest : List Char} {c : Char}

/-! ## Classes of characters -/

theorem Blanks.isBlank_of_mem (blanks : Blanks) (hc : c ∈ blanks.val) : isBlank c = true :=
  List.all_eq_true.1 blanks.property c hc

theorem inRanges_eq_false {ranges ranges' : List (Nat × Nat)}
    (hd : (ranges.all fun r => ranges'.all fun r' => decide (r.2 < r'.1) || decide (r'.2 < r.1)) =
      true) (h : inRanges ranges c = true) : inRanges ranges' c = false := by
  simp only [inRanges, List.any_eq_true, List.any_eq_false, List.all_eq_true, Bool.and_eq_true,
    Bool.or_eq_true, decide_eq_true_eq] at *
  obtain ⟨r, hr, hlo, hhi⟩ := h
  rintro r' hr' ⟨hlo', hhi'⟩
  have := hd r hr r' hr'
  omega

/-- White space is no digit. -/
theorem isDigit_of_isBlank (h : isBlank c = true) : isDigit c = false := by
  have hascii : isAsciiDigit c = inRanges [(0x30, 0x39)] c := by
    rw [isAsciiDigit, inRanges, List.any_cons, List.any_nil, Bool.or_false]
    rfl
  have hother : inRanges digitRanges c = false := inRanges_eq_false (by decide +kernel) h
  rw [isDigit, hascii, inRanges_eq_false (by decide) h, hother]
  rfl

/-! ## Trimming -/

/-- What is trimmed at the end is behind every text that ends in another character. -/
theorem prefix_trimEnd_iff {q s : List Char} {d : Char} (hd : isBlank d = false) :
    q ++ [d] <+: trimEnd s ↔ q ++ [d] <+: s := by
  constructor
  · intro h
    have hs : trimEnd s <+: s := by
      rw [trimEnd, ← List.reverse_suffix, List.reverse_reverse]
      exact List.dropWhile_suffix isBlank
    exact h.trans hs
  · rintro ⟨t, rfl⟩
    have hhead : ∀ c ∈ (d :: q.reverse).head?, isBlank c = false := by simp [hd]
    have hreverse : (q ++ [d] ++ t).reverse = t.reverse ++ d :: q.reverse := by simp
    rw [trimEnd, hreverse, dropWhile_append_of_head hhead]
    simp

/-! ## Reading -/

theorem skipBlanks_append (blanks : Blanks) (hs : ∀ c ∈ s.head?, isBlank c = false) :
    skipBlanks (blanks.val ++ s) = s := by
  rw [skipBlanks, dropWhile_append_of_head hs,
    List.dropWhile_eq_nil_iff.2 fun c => blanks.isBlank_of_mem, List.nil_append]

/-- A reader that no white space starts a match of reads behind white space. -/
theorem read_skipBlanks_eq_some_iff {β : Type} {read : List Char → Option β} {b : β}
    (h : ∀ c s, isBlank c = true → read (c :: s) = none) :
    read (skipBlanks s) = some b ↔
      ∃ (blanks : Blanks) (rest : List Char), s = blanks.val ++ rest ∧ read rest = some b := by
  constructor
  · intro hr
    exact ⟨⟨s.takeWhile isBlank, List.all_takeWhile⟩, skipBlanks s,
      List.takeWhile_append_dropWhile.symm, hr⟩
  · rintro ⟨blanks, rest, rfl, hr⟩
    have hhead : ∀ c ∈ rest.head?, isBlank c = false := by
      intro c hc
      obtain ⟨t, rfl⟩ := List.head?_eq_some_iff.1 hc
      rw [← Bool.not_eq_true]
      intro hblank
      rw [h c t hblank] at hr
      cases hr
    rwa [skipBlanks_append blanks hhead]

/-- A token is read behind white space. -/
theorem after?_skipBlanks_eq_some_iff (hp : p.head?.any (!isBlank ·) = true) :
    after? p (skipBlanks s) = some rest ↔ ∃ blanks : Blanks, s = blanks.val ++ (p ++ rest) := by
  obtain ⟨c, hc, hblank⟩ := (Option.any_eq_true _ _).1 hp
  have hnone : ∀ d t, isBlank d = true → after? p (d :: t) = none := by
    intro d t hd
    refine Option.eq_none_iff_forall_not_mem.2 fun rest h => ?_
    obtain ⟨q, rfl⟩ := List.head?_eq_some_iff.1 hc
    obtain ⟨rfl, -⟩ := List.cons.inj (after?_eq_some_iff.1 h)
    rw [hd] at hblank
    cases hblank
  rw [read_skipBlanks_eq_some_iff hnone]
  simp only [after?_eq_some_iff]
  constructor
  · rintro ⟨blanks, t, rfl, rfl⟩
    exact ⟨blanks, rfl⟩
  · rintro ⟨blanks, rfl⟩
    exact ⟨blanks, _, rfl, rfl⟩

theorem after?_append (p s : List Char) : after? p (p ++ s) = some s := after?_eq_some_iff.2 rfl

theorem after?_char (blanks : Blanks) (hc : isBlank c = false) :
    after? [c] (skipBlanks (blanks.val ++ c :: s)) = some s :=
  (after?_skipBlanks_eq_some_iff (by simp [hc])).2 ⟨blanks, rfl⟩

theorem run?_eq_some_iff {class_ : Char → Bool} {taken : List Char} :
    run? class_ s = some (taken, rest) ↔ taken ≠ [] ∧ taken.all class_ ∧
      (∀ c ∈ rest.head?, class_ c = false) ∧ s = taken ++ rest := by
  constructor
  · intro h
    rw [run?] at h
    split at h
    · cases h
    · rename_i hne
      obtain ⟨rfl, rfl⟩ := Prod.mk.inj (Option.some.inj h)
      refine ⟨by simpa using hne, List.all_takeWhile, fun c hc => ?_,
        List.takeWhile_append_dropWhile.symm⟩
      have := List.head?_dropWhile_not class_ s
      rw [Option.mem_def.1 hc] at this
      simpa using this
  · rintro ⟨hne, hall, hhead, rfl⟩
    have htake : (taken ++ rest).takeWhile class_ = taken := by
      rw [takeWhile_append_of_head hhead, List.takeWhile_eq_self_iff.2 (by simpa using hall)]
    have hdrop : (taken ++ rest).dropWhile class_ = rest := by
      rw [dropWhile_append_of_head hhead, List.dropWhile_eq_nil_iff.2 (by simpa using hall),
        List.nil_append]
    rw [run?, htake, hdrop, if_neg (by simpa using hne)]

end CliParity.Text
