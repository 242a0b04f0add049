import CliParity.Command.ReplyFormat
import CliParity.Proofs.Text.Occurrence
import CliParity.Proofs.Text.Scan

/-!
# Published reply formats hold no conversion

`Conversion.Spells kind w` says which texts are a conversion of a kind. A conversion is read off
exactly the texts that begin with one (`Conversion.read?_eq_some_iff`), so a pass leaves none of its
kind (`Conversion.absent_substitute`). No pass makes one of another kind: what it writes has no
percent sign and stands between braces, which no conversion holds
(`Conversion.infix_of_infix_substitute`). So no conversion is left after all passes, and a format is
its own format just if it holds none (`replyFormat_eq_self_iff`).
-/

set_option autoImplicit false

namespace CliParity

open Text

namespace Conversion

/-! ## The texts of a conversion -/

/-- At most one `c`. -/
def Optional (c : Char) (s : List Char) : Prop := s = [] ∨ s = [c]

/-- Digits behind a point, or nothing at all. -/
def Precision (s : List Char) : Prop := s = [] ∨ ∃ digits, digits.all isDigit ∧ s = '.' :: digits

/-- The texts of a conversion of each kind. -/
inductive Spells : Conversion → List Char → Prop
  | int {zero two : List Char} : Optional '0' zero → Optional '2' two →
      Spells int ('%' :: (zero ++ two ++ ['d']))
  | str : Spells str ['%', 's']
  | uint : Spells uint ['%', 'u']
  | float {width precision long : List Char} : width.all isDigit → Precision precision →
      Optional 'l' long → Spells float ('%' :: (width ++ precision ++ long ++ ['f']))

/-- The text holds no conversion of this kind. -/
def Absent (kind : Conversion) (s : List Char) : Prop := ∀ w, Spells kind w → ¬ w <:+: s

variable {kind kind' : Conversion} {s t w rest : List Char}

/-! ## Percent sign, modifiers and letter -/

/-- The last character of a conversion. -/
def letter : Conversion → Char
  | int => 'd'
  | str => 's'
  | uint => 'u'
  | float => 'f'

/-- The characters between the percent sign and the letter. -/
def isModifier (c : Char) : Bool := isDigit c || c == '.' || c == 'l'

theorem not_isModifier_letter (kind : Conversion) : isModifier kind.letter = false := by
  cases kind <;> decide

theorem letter_injective : Function.Injective letter := by
  intro a b h
  cases a <;> cases b <;> first | rfl | simp [letter] at h

theorem Optional.all_isModifier {c : Char} (h : Optional c s) (hc : isModifier c = true) :
    s.all isModifier := by
  rcases h with rfl | rfl <;> simp [hc]

theorem all_isModifier_of_digits (h : s.all isDigit) : s.all isModifier := by
  rw [List.all_eq_true] at h ⊢
  intro c hc
  simp [isModifier, h c hc]

theorem Precision.all_isModifier (h : Precision s) : s.all isModifier := by
  rcases h with rfl | ⟨digits, hd, rfl⟩
  · rfl
  · rw [List.all_cons, all_isModifier_of_digits hd]
    rfl

/-- A conversion is a percent sign, modifiers and the letter of its kind. -/
theorem Spells.exists_modifiers (h : Spells kind w) :
    ∃ m, m.all isModifier ∧ w = '%' :: (m ++ [kind.letter]) := by
  cases h with
  | int hz htwo =>
    exact ⟨_, by simp [hz.all_isModifier rfl, htwo.all_isModifier rfl], rfl⟩
  | str => exact ⟨[], rfl, rfl⟩
  | uint => exact ⟨[], rfl, rfl⟩
  | float hw hp hl =>
    exact ⟨_, by simp [all_isModifier_of_digits hw, hp.all_isModifier, hl.all_isModifier rfl], rfl⟩

/-- A conversion starts with a percent sign and holds no brace. -/
theorem Spells.chars (h : Spells kind w) : w.head? = some '%' ∧ '\x7b' ∉ w ∧ '\x7d' ∉ w := by
  obtain ⟨m, hm, rfl⟩ := h.exists_modifiers
  have far {c : Char} (hc : isModifier c = false) : c ∉ m := fun hmem => by
    simp [List.all_eq_true.1 hm c hmem] at hc
  have hopen : '\x7b' ∉ m := far (by decide)
  have hclose : '\x7d' ∉ m := far (by decide)
  cases kind <;> simp [letter, hopen, hclose]

theorem Spells.ne_nil (h : Spells kind w) : w ≠ [] := by
  rintro rfl
  simpa using h.chars.1

/-- A conversion has one percent sign, and that in front. -/
theorem Spells.exists_tail (h : Spells kind w) : ∃ m, w = '%' :: m ∧ '%' ∉ m := by
  obtain ⟨m, hm, rfl⟩ := h.exists_modifiers
  refine ⟨_, rfl, fun hmem => ?_⟩
  rcases List.mem_append.1 hmem with hmem | hmem
  · have := List.all_eq_true.1 hm _ hmem
    exact absurd this (by decide)
  · cases kind <;> simp [letter] at hmem

/-! ## Reading -/

theorem exists_skipOptional (c : Char) (s : List Char) :
    ∃ o, Optional c o ∧ s = o ++ skipOptional c s := by
  cases s with
  | nil => exact ⟨[], .inl rfl, rfl⟩
  | cons d s =>
    rw [skipOptional]
    split
    · rename_i hd
      exact ⟨[c], .inr rfl, by rw [hd]; rfl⟩
    · exact ⟨[], .inl rfl, rfl⟩

theorem skipOptional_append {c d : Char} {o : List Char} (ho : Optional c o) (hd : d ≠ c) :
    skipOptional c (o ++ d :: s) = d :: s := by
  rcases ho with rfl | rfl
  · simp [skipOptional, hd]
  · simp [skipOptional]

theorem exists_skipPrecision (s : List Char) : ∃ p, Precision p ∧ s = p ++ skipPrecision s := by
  cases s with
  | nil => exact ⟨[], .inl rfl, rfl⟩
  | cons c s =>
    rw [skipPrecision]
    split
    · rename_i hc
      refine ⟨'.' :: s.takeWhile isDigit, .inr ⟨_, List.all_takeWhile, rfl⟩, ?_⟩
      rw [hc, List.cons_append, List.takeWhile_append_dropWhile]
    · exact ⟨[], .inl rfl, rfl⟩

theorem dropWhile_digits_append {digits : List Char} {c : Char} (hd : digits.all isDigit)
    (hc : isDigit c = false) : (digits ++ c :: s).dropWhile isDigit = c :: s := by
  rw [List.dropWhile_append_of_pos (by simpa using hd), List.dropWhile_cons, hc]
  rfl

theorem skipPrecision_append {p : List Char} {c : Char} (hp : Precision p) (hn : c ≠ '.')
    (hc : isDigit c = false) : skipPrecision (p ++ c :: s) = c :: s := by
  rcases hp with rfl | ⟨digits, hd, rfl⟩
  · simp [skipPrecision, hn]
  · simp [skipPrecision, dropWhile_digits_append hd hc]

/-- A precision goes on no run of digits. -/
theorem dropWhile_width {width p : List Char} {c : Char} (hw : width.all isDigit)
    (hp : Precision p) (hc : isDigit c = false) :
    (width ++ (p ++ c :: s)).dropWhile isDigit = p ++ c :: s := by
  rcases hp with rfl | ⟨digits, -, rfl⟩
  · exact dropWhile_digits_append hw hc
  · exact dropWhile_digits_append hw (by decide)

theorem spells_of_read? (h : kind.read? s = some rest) : ∃ w, Spells kind w ∧ s = w ++ rest := by
  obtain ⟨t, ht, hr⟩ := Option.bind_eq_some_iff.1 h
  obtain rfl := after?_eq_some_iff.1 ht
  cases kind with
  | int =>
    obtain ⟨zero, hz, hs⟩ := exists_skipOptional '0' t
    obtain ⟨two, htwo, hs'⟩ := exists_skipOptional '2' (skipOptional '0' t)
    refine ⟨_, .int hz htwo, ?_⟩
    rw [after?_eq_some_iff.1 hr] at hs'
    rw [hs, hs']
    simp
  | str => exact ⟨_, .str, by rw [after?_eq_some_iff.1 hr]; rfl⟩
  | uint => exact ⟨_, .uint, by rw [after?_eq_some_iff.1 hr]; rfl⟩
  | float =>
    have hs := (List.takeWhile_append_dropWhile (p := isDigit) (l := t)).symm
    obtain ⟨p, hp, hs'⟩ := exists_skipPrecision (t.dropWhile isDigit)
    obtain ⟨l, hl, hs''⟩ := exists_skipOptional 'l' (skipPrecision (t.dropWhile isDigit))
    refine ⟨_, .float (List.all_takeWhile (l := t)) hp hl, ?_⟩
    rw [after?_eq_some_iff.1 hr] at hs''
    rw [hs''] at hs'
    rw [hs', ← List.append_assoc, ← List.append_assoc] at hs
    simpa using hs

theorem read?_of_spells (h : Spells kind w) (rest : List Char) :
    kind.read? (w ++ rest) = some rest := by
  have percent (s : List Char) : kind.read? ('%' :: s) = kind.tail? s := by
    rw [read?, after?_eq_some_iff.2 (List.singleton_append).symm, Option.bind_some]
  cases h with
  | @int zero two hz htwo =>
    rw [List.cons_append, percent, tail?, List.append_assoc, List.append_assoc,
      after?_eq_some_iff]
    rcases htwo with rfl | rfl
    · rw [List.nil_append, List.singleton_append, skipOptional_append hz (by decide)]
      rfl
    · rw [List.singleton_append, skipOptional_append hz (by decide)]
      rfl
  | str => exact (percent _).trans (after?_eq_some_iff.2 rfl)
  | uint => exact (percent _).trans (after?_eq_some_iff.2 rfl)
  | @float width p l hw hp hl =>
    rw [List.cons_append, percent, tail?, List.append_assoc, List.append_assoc,
      List.append_assoc, after?_eq_some_iff]
    rcases hl with rfl | rfl
    · rw [List.nil_append, List.singleton_append, dropWhile_width hw hp (by decide),
        skipPrecision_append hp (by decide) (by decide)]
      rfl
    · rw [List.singleton_append, dropWhile_width hw hp (by decide),
        skipPrecision_append hp (by decide) (by decide)]
      rfl

/-- A conversion is read off the texts that begin with one. -/
theorem read?_eq_some_iff :
    kind.read? s = some rest ↔ ∃ w, Spells kind w ∧ s = w ++ rest := by
  constructor
  · exact spells_of_read?
  · rintro ⟨w, hw, rfl⟩
    exact read?_of_spells hw rest

/-! ## One pass -/

theorem read_recogniser (kind : Conversion) (s : List Char) :
    kind.recogniser.read s = (kind.read? s).map ((), ·) := rfl

@[simp]
theorem substitute_nil (kind : Conversion) : kind.substitute [] = [] := by
  simp [substitute, replaceMatches]

theorem substitute_of_spells (h : Spells kind w) (rest : List Char) :
    kind.substitute (w ++ rest) = kind.placeholder.toList ++ kind.substitute rest := by
  have hr : kind.recogniser.read (w ++ rest) = some ((), rest) := by
    rw [read_recogniser, read?_of_spells h, Option.map_some]
  cases h <;> exact replaceMatches_of_read hr

theorem substitute_of_read?_none {c : Char} (h : kind.read? (c :: s) = none) :
    kind.substitute (c :: s) = c :: kind.substitute s := by
  apply replaceMatches_of_none
  rw [read_recogniser, h, Option.map_none]

/-- What holds of the empty text, of a text behind a conversion of which it holds, and of one more
character that starts none, holds of all texts. -/
theorem pass_induction {P : List Char → Prop} (kind : Conversion) (nil : P [])
    (conversion : ∀ w rest, Spells kind w → P rest → P (w ++ rest))
    (char : ∀ c s, kind.read? (c :: s) = none → P s → P (c :: s)) (s : List Char) : P s := by
  induction s using replaceMatches.induct kind.recogniser with
  | case1 => exact nil
  | case2 c s a rest h ih =>
    rw [read_recogniser, Option.map_eq_some_iff] at h
    obtain ⟨rest', hr, he⟩ := h
    obtain ⟨-, rfl⟩ := Prod.mk.inj he
    obtain ⟨w, hw, hs⟩ := spells_of_read? hr
    rw [hs]
    exact conversion w _ hw ih
  | case3 c s h ih =>
    rw [read_recogniser, Option.map_eq_none_iff] at h
    exact char c s h ih

theorem placeholder_chars (kind : Conversion) :
    ∃ name, kind.placeholder.toList = '\x7b' :: (name ++ ['\x7d']) ∧ '%' ∉ name := by
  cases kind
  · exact ⟨['i', 'n', 't'], rfl, by decide⟩
  · exact ⟨['s', 't', 'r'], rfl, by decide⟩
  · exact ⟨['u', 'i', 'n', 't'], rfl, by decide⟩
  · exact ⟨['f', 'l', 'o', 'a', 't'], rfl, by decide⟩

/-- A conversion behind a placeholder does not begin in it. -/
theorem infix_of_infix_placeholder_append (h : Spells kind' w)
    (hi : w <:+: kind.placeholder.toList ++ s) : w <:+: s := by
  obtain ⟨name, hn, hp⟩ := kind.placeholder_chars
  obtain ⟨hhead, -, hclose⟩ := h.chars
  have hs : kind.placeholder.toList ++ s = '\x7b' :: name ++ '\x7d' :: s := by simp [hn]
  rw [hs, infix_append_cons_iff hclose] at hi
  rcases hi with hi | hi
  · have hm : '%' ∈ '\x7b' :: name := hi.subset (List.mem_of_head? hhead)
    simp [hp] at hm
  · exact hi

/-- A text without braces in front of a pass over `s` was in front of `s`. -/
theorem prefix_of_prefix_substitute (hw : '\x7b' ∉ w) (h : w <+: kind.substitute s) : w <+: s := by
  induction s using pass_induction kind generalizing w with
  | nil => simpa using h
  | conversion v rest hv ih =>
    obtain ⟨name, hn, -⟩ := kind.placeholder_chars
    rw [substitute_of_spells hv, hn] at h
    rcases List.prefix_cons_iff.1 h with rfl | ⟨t, rfl, -⟩
    · exact List.nil_prefix
    · exact absurd List.mem_cons_self hw
  | char c s hc ih =>
    rw [substitute_of_read?_none hc] at h
    rcases List.prefix_cons_iff.1 h with rfl | ⟨t, rfl, ht⟩
    · exact List.nil_prefix
    · exact (List.prefix_cons_inj c).2 (ih (mt (List.mem_cons_of_mem c) hw) ht)

/-- A pass makes no conversion. -/
theorem infix_of_infix_substitute (hw : Spells kind' w) (h : w <:+: kind.substitute s) :
    w <:+: s := by
  induction s using pass_induction kind with
  | nil => simpa using h
  | conversion v rest hv ih =>
    rw [substitute_of_spells hv] at h
    exact (ih (infix_of_infix_placeholder_append hw h)).trans (List.suffix_append v rest).isInfix
  | char c s hc ih =>
    have hs := substitute_of_read?_none hc
    rw [hs] at h
    rcases List.infix_cons_iff.1 h with h | h
    · exact (prefix_of_prefix_substitute hw.chars.2.1 (hs ▸ h)).isInfix
    · exact (ih h).trans (List.suffix_cons c s).isInfix

/-- A pass leaves no conversion of its kind. -/
theorem absent_substitute (kind : Conversion) (s : List Char) :
    Absent kind (kind.substitute s) := by
  intro w hw h
  induction s using pass_induction kind with
  | nil => exact hw.ne_nil (by simpa using h)
  | conversion v rest hv ih =>
    rw [substitute_of_spells hv] at h
    exact ih (infix_of_infix_placeholder_append hw h)
  | char c s hc ih =>
    have hs := substitute_of_read?_none hc
    rw [hs] at h
    rcases List.infix_cons_iff.1 h with h | h
    · obtain ⟨rest, hr⟩ := prefix_of_prefix_substitute hw.chars.2.1 (hs ▸ h)
      cases hc.symm.trans (hr ▸ read?_of_spells hw rest)
    · exact ih h

theorem Absent.substitute (h : Absent kind s) (kind' : Conversion) :
    Absent kind (kind'.substitute s) :=
  fun w hw hi => h w hw (infix_of_infix_substitute hw hi)

/-- A text without a conversion of a kind is not changed by its pass. -/
theorem substitute_of_absent (h : Absent kind s) : kind.substitute s = s := by
  induction s using pass_induction kind with
  | nil => exact substitute_nil kind
  | conversion v rest hv ih => exact absurd (List.prefix_append v rest).isInfix (h v hv)
  | char c s hc ih =>
    have hs : Absent kind s := fun w hw hi => h w hw (hi.trans (List.suffix_cons c s).isInfix)
    rw [substitute_of_read?_none hc, ih hs]

theorem substitute_ne_nil (kind : Conversion) (hs : s ≠ []) : kind.substitute s ≠ [] := by
  induction s using pass_induction kind with
  | nil => exact absurd rfl hs
  | conversion v rest hv ih =>
    obtain ⟨name, hn, -⟩ := kind.placeholder_chars
    rw [substitute_of_spells hv, hn]
    exact List.cons_ne_nil _ _
  | char c s hc ih =>
    rw [substitute_of_read?_none hc]
    exact List.cons_ne_nil _ _

/-! ## All passes -/

/-- A pass for each of some kinds, one after the other. -/
def substituteAll (kinds : List Conversion) (s : List Char) : List Char :=
  kinds.foldl (fun s kind => kind.substitute s) s

theorem absent_substituteAll {kinds : List Conversion} (h : kind ∈ kinds ∨ Absent kind s) :
    Absent kind (substituteAll kinds s) := by
  induction kinds generalizing s with
  | nil => exact h.resolve_left List.not_mem_nil
  | cons kind' kinds ih =>
    refine ih ?_
    rcases h with h | h
    · rcases List.mem_cons.1 h with rfl | h
      · exact .inr (absent_substitute kind s)
      · exact .inl h
    · exact .inr (h.substitute kind')

theorem substituteAll_of_absent {kinds : List Conversion} (h : ∀ kind ∈ kinds, Absent kind s) :
    substituteAll kinds s = s := by
  induction kinds with
  | nil => rfl
  | cons kind kinds ih =>
    have hs := substitute_of_absent (h kind List.mem_cons_self)
    rw [substituteAll, List.foldl_cons, hs]
    exact ih fun kind' hk => h kind' (List.mem_cons_of_mem kind hk)

theorem substituteAll_ne_nil (kinds : List Conversion) (hs : s ≠ []) :
    substituteAll kinds s ≠ [] := by
  induction kinds generalizing s with
  | nil => exact hs
  | cons kind kinds ih => exact ih (substitute_ne_nil kind hs)

theorem mem_all (kind : Conversion) : kind ∈ all := by
  cases kind <;> decide

end Conversion

/-! ## Formats -/

open Conversion

variable {t u : String}

theorem replyFormat_eq_some_iff : replyFormat (some t) = some u ↔
    t ≠ "" ∧ u.toList = substituteAll Conversion.all t.toList := by
  rw [replyFormat, Option.map_eq_some_iff]
  constructor
  · rintro ⟨t', ht, rfl⟩
    obtain ⟨ht, hne⟩ := Option.filter_eq_some_iff.1 ht
    cases ht
    exact ⟨of_decide_eq_true hne, String.toList_ofList⟩
  · rintro ⟨hne, hu⟩
    exact ⟨t, by simp [hne], by rw [← String.ofList_toList (s := u), hu]; rfl⟩

/-- The formats that are their own formats. -/
theorem replyFormat_eq_self_iff : replyFormat (some u) = some u ↔
    u ≠ "" ∧ ∀ kind, Absent kind u.toList := by
  rw [replyFormat_eq_some_iff]
  refine and_congr_right fun _ => ⟨fun h kind => ?_, fun h => ?_⟩
  · rw [h]
    exact absent_substituteAll (.inl (mem_all kind))
  · exact (substituteAll_of_absent fun kind _ => h kind).symm

/-- **Formats are normal.** A published format is its own format, and holds no conversion of any
kind. -/
theorem replyFormat_normal (h : replyFormat (some t) = some u) :
    replyFormat (some u) = some u ∧ ∀ kind w, Spells kind w → ¬ w <:+: u.toList := by
  obtain ⟨hne, hu⟩ := replyFormat_eq_some_iff.1 h
  have habsent (kind : Conversion) : Absent kind u.toList := by
    rw [hu]
    exact absent_substituteAll (.inl (mem_all kind))
  have hu' : u ≠ "" := by
    rintro rfl
    exact substituteAll_ne_nil Conversion.all (by simpa using hne) hu.symm
  exact ⟨replyFormat_eq_self_iff.2 ⟨hu', habsent⟩, habsent⟩

/-- A placeholder between the two parts of a conversion does not join them, nor do the percent sign
and the placeholder behind it make one. -/
theorem replyFormat_parted_conversion :
    replyFormat (some "%%d%.1%s2f") = some "%\x7bint\x7d%.1\x7bstr\x7d2f" ∧
      replyFormat (some "%\x7bint\x7d%.1\x7bstr\x7d2f") = some "%\x7bint\x7d%.1\x7bstr\x7d2f" ∧
      ∀ kind w, Spells kind w → ¬ w <:+: "%\x7bint\x7d%.1\x7bstr\x7d2f".toList := by
  have h : replyFormat (some "%%d%.1%s2f") = some "%\x7bint\x7d%.1\x7bstr\x7d2f" := by
    decide +kernel
  exact ⟨h, replyFormat_normal h⟩

end CliParity
