import CliParity.Proofs.Patch.Run

/-!
# An appended text that opens up the way for a replacement

`Opening marker boundary old anchor text`: the text begins with a line feed and holds `old`, and
neither the marker nor the boundary arises where it is put at the end of a line. So it makes a
replacement in front of the boundary ready that was not, exactly where there is no marker, the first
boundary is behind the end of that line, and `old` is not in front of it (`ready_insert_iff`).
-/

set_option autoImplicit false

namespace CliParity

open Text

/-- What an edit appends makes another one ready, in some places. -/
structure Opening (marker boundary old anchor text : List Char) : Prop where
  marker_line : '\n' ∉ marker
  boundary_line : boundary.head? = some '\n' ∧ '\n' ∉ boundary.tail
  anchor_line : '\n' ∉ anchor
  text_line : text.head? = some '\n'
  holds : old <:+: text
  lacks_marker : ¬ marker <:+: text
  lacks_boundary : ¬ boundary <:+: text

instance (marker boundary old anchor text : List Char) :
    Decidable (Opening marker boundary old anchor text) :=
  decidable_of_iff ('\n' ∉ marker ∧ (boundary.head? = some '\n' ∧ '\n' ∉ boundary.tail) ∧
      '\n' ∉ anchor ∧ text.head? = some '\n' ∧ occursIn old text = true ∧
      occursIn marker text = false ∧ occursIn boundary text = false) <| by
    simp only [← Bool.not_eq_true, occursIn_iff]
    exact ⟨fun ⟨h₁, h₂, h₃, h₄, h₅, h₆, h₇⟩ => ⟨h₁, h₂, h₃, h₄, h₅, h₆, h₇⟩,
      fun ⟨h₁, h₂, h₃, h₄, h₅, h₆, h₇⟩ => ⟨h₁, h₂, h₃, h₄, h₅, h₆, h₇⟩⟩

namespace Edit

/-- The text appended by the second edit can make the first one ready, a replacement in front of a
boundary. -/
def OpenedBy : Edit → Edit → Prop
  | replaceBefore marker boundary old _, appendToLastLine _ anchor text =>
    Opening marker boundary old anchor text
  | _, _ => False

/-! ## At the end of a line -/

section
variable {marker boundary old new anchor text a b : List Char}

/-- A text without line feeds but in front is on one side of what was put in, or within it. -/
theorem infix_cases_insert {p : List Char} (ho : Opening marker boundary old anchor text)
    (hp : '\n' ∉ p.tail) (hb : ∀ c ∈ b.head?, c = '\n') (h : p <:+: a ++ text ++ b) :
    p <:+: a ∨ p <:+: text ∨ p <:+: b := by
  have ht : ∀ c ∈ (text ++ b).head?, c = '\n' := by
    simp [List.head?_append, ho.text_line]
  rw [List.append_assoc] at h
  exact (infix_cases_of_line hp ht h).imp_right (infix_cases_of_line hp hb)

/-- The edit has nothing to do in front of a boundary that stood there before. -/
theorem not_infix_of_ready_insert (hr : (replaceBefore marker boundary old new).Regular)
    (hm : ¬ marker <:+: a ++ b) (hn : ¬ (replaceBefore marker boundary old new).Ready (a ++ b))
    (h : (replaceBefore marker boundary old new).Ready (a ++ text ++ b)) :
    ¬ boundary <:+: a := by
  obtain ⟨hq, hqq⟩ := hr.landmark boundary rfl
  obtain ⟨-, head, tail, hc, hold⟩ := h
  intro ha
  obtain ⟨x, k, hk⟩ := exists_cutFirst? ha
  obtain ⟨rfl, hx⟩ := (cutFirst?_eq_some_iff hq hqq).1 hk
  have hafter : cutFirst? boundary (x ++ boundary ++ k ++ text ++ b) =
      some (x, k ++ text ++ b) :=
    (cutFirst?_eq_some_iff hq hqq).2 ⟨by simp, hx⟩
  have hbefore : cutFirst? boundary (x ++ boundary ++ k ++ b) = some (x, k ++ b) :=
    (cutFirst?_eq_some_iff hq hqq).2 ⟨by simp, hx⟩
  obtain ⟨rfl, rfl⟩ := Prod.mk.inj (Option.some.inj (hc.symm.trans hafter))
  exact hn ⟨hm, head, k ++ b, hbefore, hold⟩

/-- Where a text put in at the end of a line makes the edit ready. -/
theorem ready_insert_iff (ho : Opening marker boundary old anchor text)
    (hr : (replaceBefore marker boundary old new).Regular) (hb : b.head? = some '\n')
    (hn : ¬ (replaceBefore marker boundary old new).Ready (a ++ b)) :
    (replaceBefore marker boundary old new).Ready (a ++ text ++ b) ↔
      ¬ marker <:+: a ++ b ∧ ∃ m after, b = m ++ boundary ++ after ∧
        ¬ boundary <:+: a ++ m ∧ ¬ old <:+: a ++ m := by
  obtain ⟨hq, hqq⟩ := hr.landmark boundary rfl
  have hmt : '\n' ∉ marker.tail := fun h => ho.marker_line (List.mem_of_mem_tail h)
  have hb' : ∀ c ∈ b.head?, c = '\n' := by simp [hb]
  constructor
  · intro h
    have ⟨hmark, head, tail, hc, _⟩ := h
    have hm : ¬ marker <:+: a ++ b := fun h => hmark <|
      (infix_cases_of_line hmt hb' h).elim (fun h => h.trans ⟨[], text ++ b, by simp⟩)
        fun h => h.trans ⟨a ++ text, [], by simp⟩
    have ha := not_infix_of_ready_insert hr hm hn h
    have hbb : boundary <:+: b := by
      have hi : boundary <:+: a ++ text ++ b := ⟨head, tail, (cutFirst?_eq_append hc).symm⟩
      exact ((infix_cases_insert ho ho.boundary_line.2 hb' hi).resolve_left ha).resolve_left
        ho.lacks_boundary
    -- the first boundary of `b` is the first of all, and was so before the insertion
    obtain ⟨m, after, hk⟩ := exists_cutFirst? hbb
    obtain ⟨rfl, hmb⟩ := (cutFirst?_eq_some_iff hq hqq).1 hk
    have hml : ∀ c ∈ m.head?, c = '\n' := by cases m <;> simp_all
    have ham : ¬ boundary <:+: a ++ m := fun h =>
      (infix_cases_of_line ho.boundary_line.2 hml h).elim ha hmb
    have hk' : cutFirst? boundary (a ++ (m ++ boundary ++ after)) = some (a ++ m, after) :=
      (cutFirst?_eq_some_iff hq hqq).2 ⟨by simp, ham⟩
    exact ⟨hm, m, after, rfl, ham, fun h => hn ⟨hm, a ++ m, after, hk', h⟩⟩
  · rintro ⟨hmark, m, after, rfl, ham, -⟩
    have hml : ∀ c ∈ m.head?, c = '\n' := by cases m <;> simp_all
    have hm : ¬ marker <:+: a ++ text ++ (m ++ boundary ++ after) := by
      intro h
      rcases infix_cases_insert ho hmt hb' h with h | h | h
      · exact hmark (h.trans ⟨[], _, rfl⟩)
      · exact ho.lacks_marker h
      · exact hmark (h.trans ⟨a, [], by simp⟩)
    have hfirst : ¬ boundary <:+: a ++ text ++ m := by
      intro h
      rcases infix_cases_insert ho ho.boundary_line.2 hml h with h | h | h
      · exact ham (h.trans ⟨[], m, rfl⟩)
      · exact ho.lacks_boundary h
      · exact ham (h.trans ⟨a, [], by simp⟩)
    exact ⟨hm, a ++ text ++ m, after, (cutFirst?_eq_some_iff hq hqq).2 ⟨by simp, hfirst⟩,
      ho.holds.trans ⟨a, m, rfl⟩⟩

end

/-! ## On the last line of an anchor -/

section
variable {marker anchor text s : List Char}

theorem ready_appendToLastLine_iff (hr : (appendToLastLine marker anchor text).Regular)
    (ha : '\n' ∉ anchor) : (appendToLastLine marker anchor text).Ready s ↔
      ¬ marker <:+: s ∧ ∃ before line after, s = before ++ anchor ++ line ++ '\n' :: after ∧
        before ≠ [] ∧ '\n' ∉ line ∧ ¬ anchor <:+: line ++ '\n' :: after := by
  obtain ⟨hq, hqq⟩ := hr.landmark anchor rfl
  refine and_congr_right fun _ => ⟨?_, ?_⟩
  · rintro ⟨head, tail, hc, hne, hn⟩
    obtain ⟨hs, hlast⟩ := (cutLast?_eq_some_iff hq hqq).1 hc
    obtain ⟨line, after, rfl, hl⟩ :=
      List.eq_append_cons_of_mem ((List.mem_append.1 hn).resolve_left ha)
    exact ⟨head, line, after, by simpa using hs, hne, hl, hlast⟩
  · rintro ⟨before, line, after, hs, hne, -, hlast⟩
    have hc : cutLast? anchor s = some (before, line ++ '\n' :: after) :=
      (cutLast?_eq_some_iff hq hqq).2 ⟨by simpa using hs, hlast⟩
    exact ⟨before, line ++ '\n' :: after, hc, hne, by simp⟩

/-- Where the text goes. -/
theorem result?_appendToLastLine {before line after : List Char}
    (hr : (appendToLastLine marker anchor text).Regular) (ha : '\n' ∉ anchor)
    (hm : ¬ marker <:+: before ++ anchor ++ line ++ '\n' :: after) (hne : before ≠ [])
    (hl : '\n' ∉ line) (hlast : ¬ anchor <:+: line ++ '\n' :: after) :
    (appendToLastLine marker anchor text).result? (before ++ anchor ++ line ++ '\n' :: after) =
      some (before ++ anchor ++ line ++ text ++ '\n' :: after) := by
  obtain ⟨hq, hqq⟩ := hr.landmark anchor rfl
  have hc : cutLast? anchor (before ++ anchor ++ line ++ '\n' :: after) =
      some (before, line ++ '\n' :: after) :=
    (cutLast?_eq_some_iff hq hqq).2 ⟨by simp, hlast⟩
  have hf : cutFirst? ['\n'] (anchor ++ (line ++ '\n' :: after)) = some (anchor ++ line, after) :=
    (cutFirst?_eq_some_iff (List.cons_ne_nil _ _) (by decide)).2
      ⟨by simp, by simp [List.singleton_infix_iff, ha, hl]⟩
  rw [result?, if_neg (mt contains_iff.1 hm), appendToLastLine?, hc]
  simp [hne, hf]

end

end Edit

end CliParity
