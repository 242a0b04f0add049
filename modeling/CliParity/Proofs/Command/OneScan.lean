import CliParity.Proofs.Command.ReplyFormat

/-!
# The passes over a reply template are one scan

`Scans kinds s u` says that `u` is `s` after one scan from left to right for the conversions of some
kinds: where one starts, its placeholder is written and the scan goes on behind it, and any other
character is copied. At a percent sign no more than one conversion starts
(`Spells.eq_of_append_eq`), so a scan has one result (`Scans.unique`).

A pass for one more kind makes the scan for the kinds before a scan for that kind too
(`Scans.substitute`). So passes for some kinds, in whatever order, are one scan for them
(`scans_substituteAll`), and the order in which the kinds of conversion are replaced does not matter
(`replyFormat_scan`).
-/

set_option autoImplicit false

namespace CliParity

open Text

namespace Conversion

/-! ## What starts at a percent sign -/

variable {kind kind' : Conversion} {s t u v w w' rest rest' : List Char}

/-- Behind a percent sign, the first character that is no modifier tells the conversion. -/
theorem Spells.eq_of_append_eq (h : Spells kind w) (h' : Spells kind' w')
    (he : w ++ rest = w' ++ rest') : kind = kind' ∧ w = w' := by
  obtain ⟨m, hm, rfl⟩ := h.exists_modifiers
  obtain ⟨m', hm', rfl⟩ := h'.exists_modifiers
  have hdrop : ∀ (kind : Conversion) (m rest : List Char), m.all isModifier →
      (m ++ kind.letter :: rest).dropWhile isModifier = kind.letter :: rest := by
    intro kind m rest hm
    rw [List.dropWhile_append_of_pos (by simpa using hm), List.dropWhile_cons,
      not_isModifier_letter]
    rfl
  have htail : m ++ kind.letter :: rest = m' ++ kind'.letter :: rest' := by simpa using he
  have hletter := congrArg (List.dropWhile isModifier) htail
  rw [hdrop kind m rest hm, hdrop kind' m' rest' hm'] at hletter
  obtain ⟨hk, rfl⟩ := List.cons.inj hletter
  rw [hk, List.append_cancel_right_eq] at htail
  exact ⟨letter_injective hk, by rw [htail, hk]⟩

/-! ## One scan -/

/-- One scan for the conversions of some kinds makes `u` of `s`. -/
inductive Scans (kinds : List Conversion) : List Char → List Char → Prop
  | nil : Scans kinds [] []
  | conversion {kind : Conversion} {w s u : List Char} : kind ∈ kinds → Spells kind w →
      Scans kinds s u → Scans kinds (w ++ s) (kind.placeholder.toList ++ u)
  | char {c : Char} {s u : List Char} : (∀ kind ∈ kinds, ∀ w, Spells kind w → ¬ w <+: c :: s) →
      Scans kinds s u → Scans kinds (c :: s) (c :: u)

namespace Scans

variable {kinds : List Conversion}

/-- A scan writes a placeholder where a conversion of its kinds starts. -/
theorem of_spells_append (hk : kind ∈ kinds) (hw : Spells kind w)
    (h : Scans kinds (w ++ rest) u) :
    ∃ u', u = kind.placeholder.toList ++ u' ∧ Scans kinds rest u' := by
  generalize ht : w ++ rest = t at h
  cases h with
  | nil =>
    have := hw.ne_nil
    simp_all
  | conversion hk' hw' h =>
    obtain ⟨rfl, rfl⟩ := hw.eq_of_append_eq hw' ht
    obtain rfl := List.append_cancel_left ht
    exact ⟨_, rfl, h⟩
  | char hn h => exact absurd ⟨rest, ht⟩ (hn kind hk w hw)

theorem unique (h : Scans kinds s t) (h' : Scans kinds s u) : t = u := by
  induction h generalizing u with
  | nil =>
    generalize hs : ([] : List Char) = s at h'
    cases h' with
    | nil => rfl
    | conversion _ hw _ =>
      have := hw.ne_nil
      simp_all
    | char => cases hs
  | conversion hk hw _ ih =>
    obtain ⟨u', rfl, hrest⟩ := of_spells_append hk hw h'
    rw [ih hrest]
  | @char c s t hn _ ih =>
    generalize hs : c :: s = r at h'
    cases h' with
    | nil => cases hs
    | conversion hk hw _ => exact absurd ⟨_, hs.symm⟩ (hn _ hk _ hw)
    | char _ h' =>
      obtain ⟨rfl, rfl⟩ := List.cons.inj hs
      rw [ih h']

/-- Without kinds to look for, a scan copies. -/
theorem refl (s : List Char) : Scans [] s s := by
  induction s with
  | nil => exact .nil
  | cons c s ih => exact .char (by simp) ih

theorem congr {kinds' : List Conversion} (hk : ∀ kind, kind ∈ kinds ↔ kind ∈ kinds')
    (h : Scans kinds s u) : Scans kinds' s u := by
  induction h with
  | nil => exact .nil
  | conversion hm hw _ ih => exact .conversion ((hk _).1 hm) hw ih
  | char hn _ ih => exact .char (fun kind hm => hn kind ((hk kind).2 hm)) ih

/-- A scan copies a text without percent signs. -/
theorem of_append_of_not_mem (hv : '%' ∉ v) (h : Scans kinds (v ++ s) u) :
    ∃ u', u = v ++ u' ∧ Scans kinds s u' := by
  induction v generalizing u with
  | nil => exact ⟨u, rfl, h⟩
  | cons c v ih =>
    obtain ⟨hc, hv⟩ : c ≠ '%' ∧ '%' ∉ v := by simpa [eq_comm] using hv
    generalize ht : c :: v ++ s = t at h
    cases h with
    | nil => cases ht
    | conversion _ hw _ =>
      obtain ⟨m, rfl, -⟩ := hw.exists_tail
      exact absurd (List.cons.inj ht).1 hc
    | char _ h =>
      obtain ⟨rfl, rfl⟩ := List.cons.inj ht
      obtain ⟨u', rfl, hs⟩ := ih hv h
      exact ⟨u', rfl, hs⟩

/-- A text without braces in front of the result of a scan was in front of the text. -/
theorem prefix_of_scanned (h : Scans kinds s u) (hv : '\x7b' ∉ v) (hu : v <+: u) : v <+: s := by
  induction h generalizing v with
  | nil => exact hu
  | @conversion kind w s u _ _ _ _ =>
    obtain ⟨name, hn, -⟩ := kind.placeholder_chars
    rw [hn] at hu
    rcases List.prefix_cons_iff.1 hu with rfl | ⟨t, rfl, -⟩
    · exact List.nil_prefix
    · exact absurd List.mem_cons_self hv
  | @char c s u _ _ ih =>
    rcases List.prefix_cons_iff.1 hu with rfl | ⟨t, rfl, ht⟩
    · exact List.nil_prefix
    · exact (List.prefix_cons_inj c).2 (ih (mt (List.mem_cons_of_mem c) hv) ht)

end Scans

/-! ## Passes -/

theorem substitute_append_of_not_mem (kind : Conversion) (hv : '%' ∉ v) (s : List Char) :
    kind.substitute (v ++ s) = v ++ kind.substitute s := by
  induction v with
  | nil => rfl
  | cons c v ih =>
    obtain ⟨hc, hv⟩ : c ≠ '%' ∧ '%' ∉ v := by simpa [eq_comm] using hv
    have hr : kind.read? (c :: (v ++ s)) = none := by
      rw [Option.eq_none_iff_forall_not_mem]
      intro rest hm
      obtain ⟨w, hw, he⟩ := read?_eq_some_iff.1 hm
      obtain ⟨m, rfl, -⟩ := hw.exists_tail
      exact hc (List.cons.inj he).1
    rw [List.cons_append, substitute_of_read?_none hr, ih hv, List.cons_append]

theorem percent_not_mem_placeholder (kind : Conversion) : '%' ∉ kind.placeholder.toList := by
  obtain ⟨name, hn, hp⟩ := kind.placeholder_chars
  simp [hn, hp]

/-- A pass behind a scan is a scan for one more kind. -/
theorem Scans.substitute {kinds : List Conversion} (h : Scans kinds s u) (kind : Conversion) :
    Scans (kind :: kinds) s (kind.substitute u) := by
  induction h with
  | nil =>
    rw [substitute_nil]
    exact .nil
  | @conversion kind' w s u hk hw h ih =>
    rw [substitute_append_of_not_mem kind (percent_not_mem_placeholder kind')]
    exact .conversion (List.mem_cons_of_mem kind hk) hw ih
  | @char c s u hn h ih =>
    cases hr : kind.read? (c :: s) with
    | none =>
      -- the scan has made no conversion of this kind, so the pass copies the character too
      have hr' : kind.read? (c :: u) = none := by
        rw [Option.eq_none_iff_forall_not_mem]
        intro rest hm
        obtain ⟨w, hw, he⟩ := read?_eq_some_iff.1 hm
        have hp := (Scans.char hn h).prefix_of_scanned hw.chars.2.1 ⟨rest, he.symm⟩
        obtain ⟨rest', hs⟩ := hp
        cases hr.symm.trans (hs ▸ read?_of_spells hw rest')
      rw [substitute_of_read?_none hr']
      refine .char (fun kind' hk w hw hp => ?_) ih
      rcases List.mem_cons.1 hk with rfl | hk
      · obtain ⟨rest, hs⟩ := hp
        cases hr.symm.trans (hs ▸ read?_of_spells hw rest)
      · exact hn kind' hk w hw hp
    | some rest =>
      -- the scan has copied the conversion, and the pass writes its placeholder
      obtain ⟨w, hw, hs⟩ := spells_of_read? hr
      obtain ⟨m, rfl, hm⟩ := hw.exists_tail
      obtain ⟨rfl, rfl⟩ := List.cons.inj hs
      obtain ⟨u, rfl, h⟩ := h.of_append_of_not_mem hm
      rw [substitute_append_of_not_mem kind hm] at ih
      obtain ⟨u', hu', ih⟩ := ih.of_append_of_not_mem hm
      obtain rfl := List.append_cancel_left hu'
      have hsub := substitute_of_spells hw u
      rw [List.cons_append] at hsub
      rw [hsub]
      exact .conversion List.mem_cons_self hw ih

/-- Passes one after the other are one scan. -/
theorem scans_substituteAll (kinds : List Conversion) (s : List Char) :
    Scans kinds s (substituteAll kinds s) := by
  have hrun : ∀ (kinds before : List Conversion) (u : List Char), Scans before s u →
      Scans (kinds.reverse ++ before) s (substituteAll kinds u) := by
    intro kinds
    induction kinds with
    | nil => exact fun before u h => h
    | cons kind kinds ih =>
      intro before u h
      have := ih (kind :: before) _ (h.substitute kind)
      simpa [substituteAll] using this
  have h := hrun kinds [] s (.refl s)
  exact h.congr (by simp)

end Conversion

/-! ## Formats -/

open Conversion

variable {t : String}

/-- **One scan.** At no place of a text do two conversions start, and the published format of a
template is what one scan from left to right makes of it. So passes for all kinds give the format in
any order. -/
theorem replyFormat_scan (ht : t ≠ "") :
    (∀ {kind kind' : Conversion} {w w' rest rest' : List Char}, Spells kind w → Spells kind' w' →
      w ++ rest = w' ++ rest' → kind = kind' ∧ w = w') ∧
    (∀ u : String, replyFormat (some t) = some u ↔ Scans Conversion.all t.toList u.toList) ∧
    ∀ kinds : List Conversion, kinds.Perm Conversion.all →
      replyFormat (some t) = some (String.ofList (substituteAll kinds t.toList)) := by
  have hscan : ∀ u : String,
      replyFormat (some t) = some u ↔ Scans Conversion.all t.toList u.toList := by
    intro u
    have hall := scans_substituteAll Conversion.all t.toList
    rw [replyFormat_eq_some_iff]
    exact ⟨fun h => h.2 ▸ hall, fun h => ⟨ht, h.unique hall⟩⟩
  refine ⟨fun h h' he => h.eq_of_append_eq h' he, hscan, fun kinds hp => (hscan _).2 ?_⟩
  rw [String.toList_ofList]
  exact (scans_substituteAll kinds t.toList).congr fun kind => hp.mem_iff

/-- A width that begins as that of an integer does, and ends as that of a real number. -/
theorem replyFormat_scan_widths :
    "%02.3lf%02d" ≠ "" ∧ replyFormat (some "%02.3lf%02d") = some "\x7bfloat\x7d\x7bint\x7d" ∧
      Scans Conversion.all "%02.3lf%02d".toList "\x7bfloat\x7d\x7bint\x7d".toList ∧
      some "\x7bfloat\x7d\x7bint\x7d" =
        some (String.ofList (substituteAll Conversion.all.reverse "%02.3lf%02d".toList)) := by
  have ht : "%02.3lf%02d" ≠ "" := by decide
  have h : replyFormat (some "%02.3lf%02d") = some "\x7bfloat\x7d\x7bint\x7d" := by
    decide +kernel
  obtain ⟨-, hscan, hperm⟩ := replyFormat_scan ht
  exact ⟨ht, h, (hscan _).1 h, h.symm.trans (hperm _ (List.reverse_perm _))⟩

end CliParity
