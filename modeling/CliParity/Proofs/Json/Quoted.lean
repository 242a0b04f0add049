import CliParity.Json.Quoted

/-!
# How strings are written

A string is written part by part (`Part.Written`): a character as such, by a letter behind a
backslash, or by code units in hexadecimal digits of either case. `Denotes` says which text the
parts are for: a code unit is for the character of this number, two for one that takes a surrogate
pair. The content of a string (`HasContent`) is the text that its parts denote, if they denote one.

A string is read with its content, however it is written (`read?_of_hasContent`). What `escape`
writes for a text is one way to write it (`hasContent_flatMap_escape`).
-/

set_option autoImplicit false

namespace CliParity.Json.Quoted

/-! ## Parts -/

/-- `c` is the hexadecimal digit of `n`, in either case. -/
def IsHexDigit (c : Char) (n : Nat) : Prop :=
  n < 16 ∧ (c = hexDigit n ∨ c = (hexDigit n).toUpper)

/-- The letters that stand for a character behind a backslash. -/
def escapeLetters : List (Char × Char) :=
  [('"', '"'), ('\\', '\\'), ('/', '/'), ('n', '\n'), ('r', '\r'), ('t', '\t'), ('b', '\x08'),
   ('f', '\x0c')]

/-- A way to write a part of a string. -/
inductive Part.Written : Part → List Char → Prop
  | char {c : Char} : c ≠ '"' → c ≠ '\\' → 0x20 ≤ c.toNat → Written (.char c) [c]
  | letter {e c : Char} : (e, c) ∈ escapeLetters → Written (.char c) ['\\', e]
  | unit {a b c d : Char} {i j k l : Nat} : IsHexDigit a i → IsHexDigit b j → IsHexDigit c k →
      IsHexDigit d l → Written (.unit (((i * 16 + j) * 16 + k) * 16 + l)) ['\\', 'u', a, b, c, d]

/-- The first code unit of a character that takes a surrogate pair. -/
def leadingUnit (c : Char) : Nat := 0xD800 + (c.toNat - 0x10000) / 0x400

/-- The second one. -/
def trailingUnit (c : Char) : Nat := 0xDC00 + (c.toNat - 0x10000) % 0x400

/-- The parts are for this text. -/
inductive Denotes : List Part → List Char → Prop
  | nil : Denotes [] []
  | char {c : Char} {ps : List Part} {text : List Char} :
      Denotes ps text → Denotes (.char c :: ps) (c :: text)
  | unit {c : Char} {ps : List Part} {text : List Char} : c.toNat < 0x10000 →
      Denotes ps text → Denotes (.unit c.toNat :: ps) (c :: text)
  | pair {c : Char} {ps : List Part} {text : List Char} : 0x10000 ≤ c.toNat →
      Denotes ps text → Denotes (.unit (leadingUnit c) :: .unit (trailingUnit c) :: ps) (c :: text)

/-- A way to write some parts one after the other. -/
inductive Written : List Part → List Char → Prop
  | nil : Written [] []
  | cons {p : Part} {ps : List Part} {u w : List Char} :
      p.Written u → Written ps w → Written (p :: ps) (u ++ w)

/-- What is written between the marks of a string with this content. -/
def HasContent (content : Option String) (body : List Char) : Prop :=
  ∃ ps, Written ps body ∧ ∀ text : String, content = some text ↔ Denotes ps text.toList

variable {p : Part} {c : Char} {ps : List Part} {text body : List Char}

/-! ## Reading parts -/

theorem hexValue?_of_isHexDigit {n : Nat} (h : IsHexDigit c n) : hexValue? c = some n := by
  have hlower : ∀ n < 16, hexValue? (hexDigit n) = some n := by decide
  have hupper : ∀ n < 16, hexValue? (hexDigit n).toUpper = some n := by decide
  obtain ⟨hn, rfl | rfl⟩ := h
  · exact hlower n hn
  · exact hupper n hn

theorem unescape?_of_mem {e : Char} (h : (e, c) ∈ escapeLetters) :
    e ≠ 'u' ∧ unescape? e = some c := by
  have hall : ∀ l ∈ escapeLetters, l.1 ≠ 'u' ∧ unescape? l.1 = some l.2 := by decide
  exact hall _ h

/-- What is read in front of a text is one part. -/
theorem Part.Written.readUnits?_append {u : List Char} (h : p.Written u) (s : List Char) :
    readUnits? (u ++ s) = (readUnits? s).map fun (parts, rest) => (p :: parts, rest) := by
  cases h with
  | char hq hb hc =>
    rw [List.singleton_append, readUnits?, if_pos ⟨hc, hb⟩]
    · cases readUnits? s <;> rfl
    all_goals simp_all
  | letter hl =>
    obtain ⟨hu, he⟩ := unescape?_of_mem hl
    rw [List.cons_append, List.cons_append, List.nil_append, readUnits?, he]
    · cases readUnits? s <;> rfl
    · rintro a b c d t rfl
      exact absurd rfl hu
  | unit ha hb hc hd =>
    simp only [List.cons_append, List.nil_append, readUnits?, codeUnit?,
      hexValue?_of_isHexDigit ha, hexValue?_of_isHexDigit hb, hexValue?_of_isHexDigit hc,
      hexValue?_of_isHexDigit hd]
    cases readUnits? s <;> rfl

theorem Written.readUnits?_append {w : List Char} (h : Written ps w) (rest : List Char) :
    readUnits? (w ++ '"' :: rest) = some (ps, rest) := by
  induction h with
  | nil => rfl
  | cons hp _ ih => rw [List.append_assoc, hp.readUnits?_append, ih, Option.map_some]

/-! ## Joining code units -/

/-- The character that a part stands for by itself. -/
def Part.alone? : Part → Option Char
  | .char c => some c
  | .unit n => if isLeading n || isTrailing n then none else some (Char.ofNat n)

/-- A part that stands alone joins with none that follows. -/
theorem joinUnits?_cons (h : p.alone? = some c) (parts : List Part) :
    joinUnits? (p :: parts) = (joinUnits? parts).map (c :: ·) := by
  cases p with
  | char d =>
    obtain rfl : d = c := Option.some.inj h
    rw [joinUnits?]
  | unit n =>
    rw [Part.alone?] at h
    split at h
    · cases h
    · rename_i hn
      obtain rfl : Char.ofNat n = c := Option.some.inj h
      obtain ⟨hl, ht⟩ : isLeading n = false ∧ isTrailing n = false := by simpa using hn
      rcases parts with _ | ⟨d | m, parts⟩ <;> simp [joinUnits?, hl, ht]

/-- No character has the number of half of a surrogate pair. -/
theorem toNat_cases (c : Char) : c.toNat < 0xD800 ∨ 0xDFFF < c.toNat ∧ c.toNat < 0x110000 :=
  c.valid

theorem alone?_unit_toNat (c : Char) : (Part.unit c.toNat).alone? = some c := by
  have hc := toNat_cases c
  have hhalf : (isLeading c.toNat || isTrailing c.toNat) = false := by
    simp only [isLeading, isTrailing, Bool.or_eq_false_iff, Bool.and_eq_false_iff,
      decide_eq_false_iff_not]
    omega
  rw [Part.alone?, hhalf, if_neg (by decide), Char.ofNat_toNat]

theorem ofPair_units (h : 0x10000 ≤ c.toNat) : ofPair (leadingUnit c) (trailingUnit c) = c := by
  have hvalue : 0x10000 + (leadingUnit c - 0xD800) * 0x400 + (trailingUnit c - 0xDC00) =
      c.toNat := by
    unfold leadingUnit trailingUnit
    omega
  rw [ofPair, hvalue, Char.ofNat_toNat]

theorem isLeading_leadingUnit (c : Char) : isLeading (leadingUnit c) = true := by
  have hc := toNat_cases c
  have hvalue : 0xD800 ≤ leadingUnit c ∧ leadingUnit c < 0xDC00 := by
    unfold leadingUnit
    omega
  simp [isLeading, hvalue]

theorem isTrailing_trailingUnit (c : Char) : isTrailing (trailingUnit c) = true := by
  have hvalue : 0xDC00 ≤ trailingUnit c ∧ trailingUnit c < 0xE000 := by
    unfold trailingUnit
    omega
  simp [isTrailing, hvalue]

theorem joinUnits?_of_denotes (h : Denotes ps text) : joinUnits? ps = some text := by
  induction h with
  | nil => rfl
  | char _ ih => rw [joinUnits?, ih, Option.map_some]
  | @unit c _ _ _ _ ih => rw [joinUnits?_cons (alone?_unit_toNat c), ih, Option.map_some]
  | @pair c _ _ hc _ ih =>
    rw [joinUnits?, if_pos (isLeading_leadingUnit c), if_pos (isTrailing_trailingUnit c),
      ofPair_units hc, ih, Option.map_some]

theorem toNat_ofNat_of_valid {n : Nat} (h : n.isValidChar) : (Char.ofNat n).toNat = n := by
  rw [Char.ofNat, dif_pos h]
  rfl

theorem Denotes.unit_ofNat {n : Nat} (h : Denotes ps text) (hn : n < 0x10000)
    (hhalf : (isLeading n || isTrailing n) = false) :
    Denotes (.unit n :: ps) (Char.ofNat n :: text) := by
  simp only [isLeading, isTrailing, Bool.or_eq_false_iff, Bool.and_eq_false_iff,
    decide_eq_false_iff_not] at hhalf
  have hvalue : (Char.ofNat n).toNat = n :=
    toNat_ofNat_of_valid (by unfold Nat.isValidChar; omega)
  have := Denotes.unit (c := Char.ofNat n) (by omega) h
  rwa [hvalue] at this

theorem Denotes.pair_ofPair {n m : Nat} (h : Denotes ps text) (hn : isLeading n = true)
    (hm : isTrailing m = true) : Denotes (.unit n :: .unit m :: ps) (ofPair n m :: text) := by
  simp only [isLeading, isTrailing, Bool.and_eq_true, decide_eq_true_eq] at hn hm
  have hvalue : (ofPair n m).toNat = 0x10000 + (n - 0xD800) * 0x400 + (m - 0xDC00) :=
    toNat_ofNat_of_valid (by unfold Nat.isValidChar; omega)
  have hl : leadingUnit (ofPair n m) = n := by
    unfold leadingUnit
    omega
  have ht : trailingUnit (ofPair n m) = m := by
    unfold trailingUnit
    omega
  have := Denotes.pair (c := ofPair n m) (by omega) h
  rwa [hl, ht] at this

theorem denotes_of_joinUnits? (hps : ∀ n, .unit n ∈ ps → n < 0x10000)
    (h : joinUnits? ps = some text) : Denotes ps text := by
  fun_induction joinUnits? ps generalizing text with
  | case1 =>
    obtain rfl := Option.some.inj h
    exact .nil
  | case2 c ps ih =>
    obtain ⟨t, ht, rfl⟩ := Option.map_eq_some_iff.1 h
    exact .char (ih (fun n hn => hps n (List.mem_cons_of_mem _ hn)) ht)
  | case3 n m ps hn hm ih =>
    obtain ⟨t, ht, rfl⟩ := Option.map_eq_some_iff.1 h
    have hps' : ∀ k, .unit k ∈ ps → k < 0x10000 := fun k hk => hps k (by simp [hk])
    exact (ih hps' ht).pair_ofPair hn hm
  | case4 | case5 | case7 => cases h
  | case6 n m ps hn hm ih =>
    obtain ⟨t, ht, rfl⟩ := Option.map_eq_some_iff.1 h
    have hps' := fun k hk => hps k (List.mem_cons_of_mem _ hk)
    exact (ih hps' ht).unit_ofNat (hps n List.mem_cons_self) (by simp [hn, hm])
  | case8 n ps _ hhalf ih =>
    obtain ⟨t, ht, rfl⟩ := Option.map_eq_some_iff.1 h
    have hps' := fun k hk => hps k (List.mem_cons_of_mem _ hk)
    exact (ih hps' ht).unit_ofNat (hps n List.mem_cons_self) (by simpa using hhalf)

/-- Four hexadecimal digits make a number of sixteen bits. -/
theorem Written.unit_lt {w : List Char} (h : Written ps w) : ∀ n, .unit n ∈ ps → n < 0x10000 := by
  induction h with
  | nil => simp
  | cons hp _ ih =>
    intro n hn
    rcases List.mem_cons.1 hn with rfl | hn
    · cases hp with
      | unit ha hb hc hd =>
        have := ha.1
        have := hb.1
        have := hc.1
        have := hd.1
        omega
    · exact ih n hn

/-! ## Strings -/

/-- A string is read with its content. -/
theorem read?_of_hasContent {content : Option String} (h : HasContent content body)
    (rest : List Char) : read? (body ++ '"' :: rest) = some (content, rest) := by
  obtain ⟨ps, hw, hcontent⟩ := h
  have hjoin : (joinUnits? ps).map String.ofList = content := by
    refine Option.ext fun text => ?_
    rw [hcontent, Option.map_eq_some_iff]
    constructor
    · rintro ⟨t, ht, rfl⟩
      rw [String.toList_ofList]
      exact denotes_of_joinUnits? hw.unit_lt ht
    · exact fun hd => ⟨text.toList, joinUnits?_of_denotes hd, String.ofList_toList⟩
  simp only [read?, hw.readUnits?_append, Option.map_some, hjoin]

/-- A surrogate pair, in digits of either case. -/
example : read? "\\/\\ud83d\\uDE00\"".toList = some (some "/😀", []) := by cbv

/-- The text that the parts denote is the only content. -/
theorem hasContent_of_denotes (hw : Written ps body) (hd : Denotes ps text) :
    HasContent (some (String.ofList text)) body := by
  refine ⟨ps, hw, fun t => ?_⟩
  rw [Option.some.injEq]
  constructor
  · rintro rfl
    rwa [String.toList_ofList]
  · intro ht
    have hsame := Option.some.inj
      ((joinUnits?_of_denotes hd).symm.trans (joinUnits?_of_denotes ht))
    rw [hsame, String.ofList_toList]

/-! ## What is written for a text -/

theorem isHexDigit_hexDigit {n : Nat} (h : n < 16) : IsHexDigit (hexDigit n) n := ⟨h, .inl rfl⟩

/-- A character is written as one part that is for it. -/
theorem written_escape (c : Char) : ∃ p : Part, p.Written (escape c) ∧
    ∀ ps text, Denotes ps text → Denotes (p :: ps) (c :: text) := by
  have short (e d : Char) (h : (e, d) ∈ escapeLetters) : ∃ p : Part, p.Written ['\\', e] ∧
      ∀ ps text, Denotes ps text → Denotes (p :: ps) (d :: text) :=
    ⟨.char d, .letter h, fun _ _ => .char⟩
  rw [escape]
  split
  · rename_i h
    exact h ▸ short '"' '"' (by decide)
  split
  · rename_i h
    exact h ▸ short '\\' '\\' (by decide)
  split
  · rename_i h
    exact h ▸ short 'n' '\n' (by decide)
  split
  · rename_i h
    exact h ▸ short 'r' '\r' (by decide)
  split
  · rename_i h
    exact h ▸ short 't' '\t' (by decide)
  split
  · rename_i h
    exact h ▸ short 'b' '\x08' (by decide)
  split
  · rename_i h
    exact h ▸ short 'f' '\x0c' (by decide)
  split
  · rename_i h
    have hzero : IsHexDigit '0' 0 := isHexDigit_hexDigit (by decide)
    have hunit := Part.Written.unit hzero hzero
      (isHexDigit_hexDigit (n := c.toNat / 16) (by omega))
      (isHexDigit_hexDigit (n := c.toNat % 16) (by omega))
    rw [show ((0 * 16 + 0) * 16 + c.toNat / 16) * 16 + c.toNat % 16 = c.toNat by omega] at hunit
    exact ⟨.unit c.toNat, hunit, fun _ _ => .unit (by omega)⟩
  · exact ⟨.char c, .char ‹_› ‹_› (Nat.le_of_not_lt ‹_›), fun _ _ => .char⟩

theorem exists_written_flatMap_escape (text : List Char) :
    ∃ ps, Written ps (text.flatMap escape) ∧ Denotes ps text := by
  induction text with
  | nil => exact ⟨[], .nil, .nil⟩
  | cons c text ih =>
    obtain ⟨ps, hw, hd⟩ := ih
    obtain ⟨p, hp, hc⟩ := written_escape c
    exact ⟨p :: ps, .cons hp hw, hc ps text hd⟩

theorem hasContent_flatMap_escape (text : List Char) :
    HasContent (some (String.ofList text)) (text.flatMap escape) := by
  obtain ⟨ps, hw, hd⟩ := exists_written_flatMap_escape text
  exact hasContent_of_denotes hw hd

/-- A string is read back with its text. -/
theorem read?_write (text rest : List Char) :
    read? (text.flatMap escape ++ '"' :: rest) = some (some (String.ofList text), rest) :=
  read?_of_hasContent (hasContent_flatMap_escape text) rest

/-- Half of a surrogate pair makes no text. -/
theorem hasContent_surrogate : HasContent none ['\\', 'u', 'd', '8', '0', '0'] := by
  have hunit : (Part.unit 0xD800).Written ['\\', 'u', 'd', '8', '0', '0'] :=
    .unit (i := 13) (j := 8) (k := 0) (l := 0) (isHexDigit_hexDigit (by decide))
      (isHexDigit_hexDigit (by decide)) (isHexDigit_hexDigit (by decide))
      (isHexDigit_hexDigit (by decide))
  refine ⟨[.unit 0xD800], .cons hunit .nil, fun text => iff_of_false (by simp) fun hd => ?_⟩
  exact absurd (joinUnits?_of_denotes hd) (by simp [joinUnits?, isLeading])

/-- No line of a written text ends in the middle of it. -/
theorem newline_not_mem_escape (c : Char) : '\n' ∉ escape c := by
  have hhex : ∀ n < 16, '\n' ≠ hexDigit n := by decide
  unfold escape
  repeat' split
  any_goals simp
  · rename_i h
    exact ⟨hhex _ (by omega), hhex _ (by omega)⟩
  · rename_i h _ _ _ _ _
    exact fun hc => h hc.symm

end CliParity.Json.Quoted
