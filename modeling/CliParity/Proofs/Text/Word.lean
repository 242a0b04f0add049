import CliParity.Proofs.Text.Blank
import CliParity.Text.Word

/-!
# Words in a text

A word is made of word characters (`IsWord`), and none of them is white space
(`isBlank_of_isWord`). A text that begins with characters of a class and goes on with one of another
is cut there in one way only (`append_cons_inj_of_all`).
-/

set_option autoImplicit false

namespace CliParity.Text

/-- Word characters, one at least. -/
structure IsWord (w : List Char) : Prop where
  ne_nil : w ≠ []
  all_isWord : w.all isWord

instance {w : List Char} : Decidable (IsWord w) :=
  decidable_of_iff (w ≠ [] ∧ w.all isWord) ⟨fun h => ⟨h.1, h.2⟩, fun h => ⟨h.1, h.2⟩⟩

theorem IsWord.not_mem {c : Char} {w : List Char} (hw : IsWord w) (hc : isWord c = false) :
    c ∉ w := by
  intro h
  rw [List.all_eq_true.1 hw.all_isWord c h] at hc
  cases hc

/-- The word characters of ASCII. -/
def asciiWordRanges : List (Nat × Nat) := [(0x30, 0x39), (0x41, 0x5A), (0x5F, 0x5F), (0x61, 0x7A)]

variable {c d : Char} {w v s t : List Char}

theorem inRanges_of_isAlphanum (h : c.isAlphanum ∨ c = '_') : inRanges asciiWordRanges c := by
  rcases h with h | rfl
  · change (decide (65 ≤ c.val ∧ c.val ≤ 90) || (decide (97 ≤ c.val) && decide (c.val ≤ 122)) ||
      (decide (48 ≤ c.val) && decide (c.val ≤ 57))) = true at h
    simp only [Bool.or_eq_true, Bool.and_eq_true, decide_eq_true_eq, UInt32.le_iff_toNat_le,
      UInt32.reduceToNat] at h
    simp only [inRanges, asciiWordRanges, List.any_cons, List.any_nil, Bool.or_eq_true,
      Bool.and_eq_true, decide_eq_true_eq, Char.toNat]
    omega
  · rfl

/-- A word character is no white space. -/
theorem isBlank_of_isWord (h : isWord c = true) : isBlank c = false := by
  rw [isWord, Bool.or_eq_true, Bool.or_eq_true, beq_iff_eq, Bool.and_eq_true] at h
  rcases h with h | ⟨-, h⟩
  · exact inRanges_eq_false (by decide) (inRanges_of_isAlphanum h)
  · exact inRanges_eq_false (by decide +kernel) h

theorem isWord_of_isBlank (h : isBlank c = true) : isWord c = false := by
  rw [← Bool.not_eq_true]
  intro hc
  rw [isBlank_of_isWord hc] at h
  cases h

theorem isWord_of_isAsciiDigit (h : isAsciiDigit c = true) : isWord c = true := by
  have hdigit : c.isDigit = true := by simpa only [isAsciiDigit, Char.isDigit, Char.le_def] using h
  simp [isWord, Char.isAlphanum, hdigit]

theorem append_cons_inj_of_all {p : Char → Bool} (hw : w.all p) (hv : v.all p) (hc : p c = false)
    (hd : p d = false) (h : w ++ c :: s = v ++ d :: t) : w = v ∧ c = d ∧ s = t := by
  have htake : ∀ {u : List Char} {e : Char} {r : List Char}, u.all p → p e = false →
      (u ++ e :: r).takeWhile p = u := by
    intro u e r hu he
    rw [takeWhile_append_of_head (by simpa using he), List.takeWhile_eq_self_iff]
    exact fun x hx => List.all_eq_true.1 hu x hx
  obtain rfl : w = v := by rw [← htake hw hc, h, htake hv hd]
  obtain ⟨rfl, rfl⟩ := List.cons.inj (List.append_cancel_left h)
  exact ⟨rfl, rfl, rfl⟩

end CliParity.Text
