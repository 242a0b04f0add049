import CliParity.Proofs.Text.Lines
import CliParity.Proofs.Text.Rewriting
import CliParity.Proofs.Text.Scan
import CliParity.Text.Blank

/-!
# Line endings

`withReturns` ends the lines of a text in a carriage return and a line feed instead of a line feed.
Each line of the text is then there as it was or with a carriage return behind it
(`forall₂_returned_lines`). A class that holds both characters or neither has the same runs in both
texts, up to these carriage returns (`takeWhile_withReturns`, `dropWhile_withReturns`), and so has a
literal without a line feed that does not end in a carriage return (`after?_withReturns`).

A reader that `IgnoresReturn` reads a line with a carriage return behind it as it reads the line.
Readers that are put together of literals, free white space and runs do so if no literal holds a
carriage return and a class that does is followed by something that must be there.
-/

set_option autoImplicit false

namespace CliParity.Text

/-! ## Carriage returns in front of line feeds -/

/-- The text with a carriage return in front of each line feed. -/
def withReturns (s : List Char) : List Char := replaceAll ['\n'] ['\r', '\n'] s

/-- The text with the line ending of two characters. -/
def crlf (text : String) : String := String.ofList (withReturns text.toList)

section
variable {c : Char} {s : List Char}

theorem toList_crlf (text : String) : (crlf text).toList = withReturns text.toList :=
  String.toList_ofList

@[simp] theorem withReturns_nil : withReturns [] = [] :=
  replaceAll_of_absent (by simp)

@[simp] theorem withReturns_newline (s : List Char) :
    withReturns ('\n' :: s) = '\r' :: '\n' :: withReturns s := by
  have hcut : cutFirst? ['\n'] ('\n' :: s) = some ([], s) := by simp [cutFirst?]
  rw [withReturns, replaceAll_of_cutFirst? (by simp) hcut]
  rfl

theorem withReturns_cons (hc : c ≠ '\n') (s : List Char) :
    withReturns (c :: s) = c :: withReturns s := by
  have hcut : cutFirst? ['\n'] (c :: s) =
      (cutFirst? ['\n'] s).map fun m => (c :: m.1, m.2) := by
    simp [cutFirst?, List.isPrefixOf, Ne.symm hc]
  rw [withReturns, withReturns]
  cases hs : cutFirst? ['\n'] s with
  | none =>
    have habsent : ∀ t, cutFirst? ['\n'] t = none → ¬ ['\n'] <:+: t := by
      intro t ht
      rw [← cutFirst?_isSome_iff, ht]
      simp
    rw [hs] at hcut
    rw [replaceAll_of_absent (habsent _ hcut), replaceAll_of_absent (habsent _ hs)]
  | some m =>
    rw [hs] at hcut
    rw [replaceAll_of_cutFirst? (by simp) hcut, replaceAll_of_cutFirst? (by simp) hs]
    rfl

theorem withReturns_of_not_mem (h : '\n' ∉ s) : withReturns s = s :=
  replaceAll_of_absent fun hi => h (hi.subset (by simp))

theorem withReturns_append_of_not_mem {a : List Char} (h : '\n' ∉ a) (s : List Char) :
    withReturns (a ++ s) = a ++ withReturns s := by
  induction a with
  | nil => rfl
  | cons c a ih =>
    obtain ⟨hc, ha⟩ : c ≠ '\n' ∧ '\n' ∉ a := by simpa [eq_comm] using h
    rw [List.cons_append, withReturns_cons hc, ih ha, List.cons_append]

/-- The text is empty, or starts with a line feed, or with another character. -/
theorem returns_induction {motive : List Char → Prop} (nil : motive [])
    (newline : ∀ s, motive s → motive ('\n' :: s))
    (cons : ∀ c s, c ≠ '\n' → motive s → motive (c :: s)) (s : List Char) : motive s := by
  induction s with
  | nil => exact nil
  | cons c s ih =>
    by_cases hc : c = '\n'
    · exact hc ▸ newline s ih
    · exact cons c s hc ih

/-- The line `b` is the line `a`, or has a carriage return behind it. -/
def Returned (a b : List Char) : Prop := b = a ∨ b = a ++ ['\r']

theorem forall₂_returned_lines (s : List Char) :
    List.Forall₂ Returned (lines s) (lines (withReturns s)) := by
  induction s using returns_induction with
  | nil =>
    rw [withReturns_nil]
    exact .cons (Or.inl rfl) .nil
  | newline s ih =>
    have hr : '\r' ≠ '\n' := by decide
    rw [withReturns_newline, lines_cons_newline, lines_cons hr, lines_cons_newline]
    exact .cons (Or.inr rfl) ih
  | cons c s hc ih =>
    rw [withReturns_cons hc, lines_cons hc, lines_cons hc]
    generalize lines s = ls, lines (withReturns s) = ls' at ih
    cases ih with
    | nil => exact .nil
    | cons hl hls =>
      refine .cons ?_ hls
      rcases hl with rfl | rfl
      · exact Or.inl rfl
      · exact Or.inr rfl

end

/-! ## Shapes in a text with carriage returns -/

section
variable {class_ : Char → Bool} {p s : List Char}

theorem takeWhile_withReturns (h : class_ '\r' = class_ '\n') (s : List Char) :
    (withReturns s).takeWhile class_ = withReturns (s.takeWhile class_) := by
  induction s using returns_induction with
  | nil => simp
  | newline s ih => cases hn : class_ '\n' <;> simp [h, hn, ih]
  | cons c s hc ih =>
    rw [withReturns_cons hc]
    cases hv : class_ c <;> simp [hv, ih, withReturns_cons hc]

theorem dropWhile_withReturns (h : class_ '\r' = class_ '\n') (s : List Char) :
    (withReturns s).dropWhile class_ = withReturns (s.dropWhile class_) := by
  induction s using returns_induction with
  | nil => simp
  | newline s ih => cases hn : class_ '\n' <;> simp [h, hn, ih]
  | cons c s hc ih =>
    rw [withReturns_cons hc]
    cases hv : class_ c <;> simp [hv, ih, withReturns_cons hc]

theorem skipBlanks_withReturns (s : List Char) :
    skipBlanks (withReturns s) = withReturns (skipBlanks s) :=
  dropWhile_withReturns (by decide) s

theorem withReturns_eq_nil_iff : withReturns s = [] ↔ s = [] := by
  induction s using returns_induction with
  | nil => simp
  | newline s ih => simp
  | cons c s hc ih => simp [withReturns_cons hc]

theorem run?_withReturns (h : class_ '\r' = class_ '\n') (s : List Char) :
    run? class_ (withReturns s) = (run? class_ s).map (Prod.map withReturns withReturns) := by
  rw [run?, run?, takeWhile_withReturns h, dropWhile_withReturns h]
  by_cases hs : s.takeWhile class_ = []
  · simp [hs]
  · simp [hs, withReturns_eq_nil_iff]

/-- A run that holds no line ending is the same. -/
theorem run?_withReturns_of_excludes (hr : class_ '\r' = false) (hn : class_ '\n' = false)
    (s : List Char) :
    run? class_ (withReturns s) = (run? class_ s).map (Prod.map id withReturns) := by
  have hfree : '\n' ∉ s.takeWhile class_ := by
    intro hmem
    have := List.mem_takeWhile_imp hmem
    simp [hn] at this
  rw [run?_withReturns (hr.trans hn.symm), run?]
  split
  · rfl
  · simp [withReturns_of_not_mem hfree]

theorem after?_cons_cons (c d : Char) (p s : List Char) :
    after? (c :: p) (d :: s) = if c = d then after? p s else none := by
  by_cases h : c = d <;> simp [after?, List.isPrefixOf, h]

theorem after?_withReturns (hn : '\n' ∉ p) (hr : p.getLast? ≠ some '\r') (s : List Char) :
    after? p (withReturns s) = (after? p s).map withReturns := by
  induction p generalizing s with
  | nil => rfl
  | cons c p ih =>
    obtain ⟨hc, hp⟩ : c ≠ '\n' ∧ '\n' ∉ p := by simpa [eq_comm] using hn
    cases s with
    | nil => rw [withReturns_nil]; rfl
    | cons d s =>
      by_cases hd : d = '\n'
      · rw [hd, withReturns_newline, after?_cons_cons, after?_cons_cons, if_neg hc]
        split
        · rename_i hcr
          -- more of the literal follows, and it is no line feed
          cases p with
          | nil => simp [hcr] at hr
          | cons e p =>
            have he : e ≠ '\n' := fun he => hp (by simp [he])
            rw [after?_cons_cons, if_neg he]
            rfl
        · rfl
      · have hr' : p.getLast? ≠ some '\r' := by
          cases p with
          | nil => simp
          | cons e p => simpa using hr
        rw [withReturns_cons hd, after?_cons_cons, after?_cons_cons]
        split
        · exact ih hp hr' s
        · rfl

end

section
variable {α : Type} {read : List Char → Option (α × List Char)} {r : Recogniser α} {g : α → α}

/-- The leftmost match is in the same place if none starts at a line ending. -/
theorem firstMatch?_withReturns
    (h : ∀ s, read (withReturns s) = (read s).map (Prod.map g withReturns))
    (hn : ∀ s, read ('\n' :: s) = none) (s : List Char) :
    firstMatch? read (withReturns s) = (firstMatch? read s).map g := by
  induction s using returns_induction with
  | nil => rw [withReturns_nil]; rfl
  | newline s ih =>
    have hr := h ('\n' :: s)
    rw [hn, withReturns_newline] at hr
    rw [withReturns_newline, firstMatch?, hr, Option.map_none, firstMatch?, hn, firstMatch?, hn]
    exact ih
  | cons c s hc ih =>
    have hr := h (c :: s)
    rw [withReturns_cons hc] at hr
    rw [withReturns_cons hc, firstMatch?, firstMatch?, hr]
    cases read (c :: s) with
    | none => exact ih
    | some m => rfl

theorem allMatches_withReturns
    (h : ∀ s, r.read (withReturns s) = (r.read s).map (Prod.map id withReturns))
    (hn : ∀ s, r.read ('\n' :: s) = none) (s : List Char) :
    allMatches r (withReturns s) = allMatches r s := by
  induction s using allMatches.induct r with
  | case1 => rw [withReturns_nil]
  | case2 c s a rest hread ih =>
    have hc : c ≠ '\n' := by
      rintro rfl
      rw [hn] at hread
      cases hread
    have hr := h (c :: s)
    rw [withReturns_cons hc, hread] at hr
    rw [withReturns_cons hc, allMatches_of_read hr, allMatches_of_read hread]
    exact congrArg _ ih
  | case3 c s hread ih =>
    have hr := h (c :: s)
    rw [hread] at hr
    rw [allMatches_of_none hread, ← ih]
    by_cases hc : c = '\n'
    · rw [hc, withReturns_newline] at hr ⊢
      rw [allMatches_of_none hr, allMatches_of_none (hn _)]
    · rw [withReturns_cons hc] at hr ⊢
      exact allMatches_of_none hr

end

/-! ## A carriage return behind a line -/

section
variable {α β : Type} {read : List Char → Option (α × List Char)} {p s : List Char}
  {class_ : Char → Bool}

theorem infix_return_iff (hp : '\r' ∉ p) : p <:+: s ++ ['\r'] ↔ p <:+: s := by
  rw [infix_append_cons_iff hp, List.infix_nil]
  constructor
  · rintro (h | rfl)
    · exact h
    · exact List.nil_infix
  · exact .inl

theorem contains_return (hp : '\r' ∉ p) (s : List Char) :
    contains (s ++ ['\r']) p = contains s p := by
  rw [Bool.eq_iff_iff, contains_iff, contains_iff, infix_return_iff hp]

/-- A run of a class that holds the carriage return ends in front of it or goes to the end. -/
theorem span_return (hc : class_ '\r' = true) (s : List Char) :
    s.dropWhile class_ = [] ∧ (s ++ ['\r']).dropWhile class_ = [] ∨
    (s ++ ['\r']).takeWhile class_ = s.takeWhile class_ ∧
      (s ++ ['\r']).dropWhile class_ = s.dropWhile class_ ++ ['\r'] := by
  induction s with
  | nil => simp [hc]
  | cons c s ih =>
    cases hv : class_ c with
    | false => simp [hv]
    | true => simpa [hv] using ih

theorem trim_return (s : List Char) : trim (s ++ ['\r']) = trim s := by
  have hblank : isBlank '\r' = true := by decide
  have hend : ∀ t, trimEnd (t ++ ['\r']) = trimEnd t := by simp [trimEnd, hblank]
  rw [trim, trim, trimStart, trimStart]
  rcases span_return hblank s with ⟨hs, hr⟩ | ⟨-, hr⟩
  · rw [hs, hr]
  · rw [hr, hend]

theorem after?_return (hp : '\r' ∉ p) (s : List Char) :
    after? p (s ++ ['\r']) = (after? p s).map (· ++ ['\r']) := by
  have hprefix : p <+: s ++ ['\r'] ↔ p <+: s := by
    rw [List.prefix_concat_iff]
    constructor
    · rintro (rfl | h)
      · simp at hp
      · exact h
    · exact .inr
  simp only [after?, List.isPrefixOf_iff_prefix, hprefix]
  split
  · rename_i h
    rw [List.drop_append_of_le_length h.length_le, Option.map_some]
  · rfl

/-- A text with a carriage return behind it is read as the text is; the carriage return is left. -/
def IgnoresReturn (read : List Char → Option (α × List Char)) : Prop :=
  ∀ s, read (s ++ ['\r']) = (read s).map (Prod.map id (· ++ ['\r']))

namespace IgnoresReturn

theorem pure (a : α) : IgnoresReturn fun s => some (a, s) := fun _ => rfl

theorem bind {k : α × List Char → Option (β × List Char)} (h : IgnoresReturn read)
    (hk : ∀ a, IgnoresReturn fun s => k (a, s)) : IgnoresReturn fun s => (read s).bind k := by
  intro s
  dsimp only
  rw [h s]
  cases read s with
  | none => rfl
  | some m => exact hk m.1 m.2

theorem or {read' : List Char → Option (α × List Char)} (h : IgnoresReturn read)
    (h' : IgnoresReturn read') : IgnoresReturn fun s => (read s).or (read' s) := by
  intro s
  dsimp only
  rw [h s, h' s, Option.map_or]

theorem literal (a : α) (hp : '\r' ∉ p) : IgnoresReturn fun s => (after? p s).map (a, ·) := by
  intro s
  dsimp only
  rw [after?_return hp, Option.map_map, Option.map_map]
  rfl

theorem after {k : List Char → Option (β × List Char)} (hp : '\r' ∉ p) (hk : IgnoresReturn k) :
    IgnoresReturn fun s => (after? p s).bind k := by
  intro s
  dsimp only
  rw [after?_return hp]
  cases after? p s with
  | none => rfl
  | some rest => exact hk rest

/-- White space may stand in front of what must be there. -/
theorem skipBlanks (h : IgnoresReturn read) (hnil : read [] = none) :
    IgnoresReturn fun s => read (skipBlanks s) := by
  intro s
  dsimp only [Text.skipBlanks]
  rcases span_return (by decide : isBlank '\r' = true) s with ⟨hs, hr⟩ | ⟨-, hr⟩
  · rw [hs, hr, hnil]
    rfl
  · rw [hr]
    exact h _

theorem after_skipBlanks {k : List Char → Option (β × List Char)} (hne : p ≠ []) (hp : '\r' ∉ p)
    (hk : IgnoresReturn k) : IgnoresReturn fun s => (after? p (Text.skipBlanks s)).bind k := by
  have hnil : after? p [] = none := by
    cases p with
    | nil => exact absurd rfl hne
    | cons c p => rfl
  exact skipBlanks (after hp hk) (by rw [hnil]; rfl)

/-- A run without the carriage return may be followed by anything. -/
theorem run (hc : class_ '\r' = false) : IgnoresReturn (run? class_) := by
  intro s
  have hhead : ∀ c ∈ ['\r'].head?, class_ c = false := by simp [hc]
  rw [run?, run?, takeWhile_append_of_head hhead, dropWhile_append_of_head hhead]
  split <;> rfl

/-- A run that may hold the carriage return is followed by what must be there. -/
theorem span {k : List Char → List Char → Option (β × List Char)} (hc : class_ '\r' = true)
    (hk : ∀ a, IgnoresReturn (k a)) (hnil : ∀ a, k a [] = none) :
    IgnoresReturn fun s => k (s.takeWhile class_) (s.dropWhile class_) := by
  intro s
  dsimp only
  rcases span_return hc s with ⟨hs, hr⟩ | ⟨ht, hr⟩
  · rw [hs, hr, hnil, hnil]
    rfl
  · rw [ht, hr]
    exact hk _ _

theorem run_bind {k : List Char × List Char → Option (β × List Char)} (hc : class_ '\r' = true)
    (hk : ∀ a, IgnoresReturn fun s => k (a, s)) (hnil : ∀ a, k (a, []) = none) :
    IgnoresReturn fun s => (run? class_ s).bind k := by
  have h : ∀ s, (run? class_ s).bind k = if (s.takeWhile class_).isEmpty then none
      else k (s.takeWhile class_, s.dropWhile class_) := by
    intro s
    rw [run?]
    split <;> rfl
  simp only [h]
  have hk' : ∀ a, IgnoresReturn fun s => if a.isEmpty then none else k (a, s) := by
    intro a s
    dsimp only
    split
    · rfl
    · exact hk a s
  exact span hc hk' (by simp [hnil])

theorem firstMatch? (h : IgnoresReturn read) (hr : read ['\r'] = none) (s : List Char) :
    firstMatch? read (s ++ ['\r']) = Text.firstMatch? read s := by
  induction s with
  | nil => simp [Text.firstMatch?, hr]
  | cons c s ih =>
    have hs := h (c :: s)
    rw [List.cons_append] at hs ⊢
    rw [Text.firstMatch?, Text.firstMatch?, hs]
    cases read (c :: s) with
    | none => exact ih
    | some m => rfl

end IgnoresReturn

end

end CliParity.Text
