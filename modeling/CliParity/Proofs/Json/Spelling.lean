import CliParity.Proofs.Json.Numeral
import CliParity.Proofs.Json.Quoted
import CliParity.Proofs.Json.Reader
import Mathlib.Data.List.Chain

/-!
# Texts that spell a value

`Spells ts s` says that a text is made of the tokens `ts`, each written in one of its ways
(`Token.Spelling`), with any space between them and at the ends. How the tokens are written and laid
out says nothing about the value: every text that spells the tokens of a value is read as this value
(`read?_of_spells`).

Only a number could go on with the text behind it. But no two tokens without a sign in between stand
beside one another in a value (`separated_tokens`), so what is behind a number ends it.
-/

set_option autoImplicit false

namespace CliParity.Json

open Text

/-! ## Spellings -/

/-- A way to write a token. -/
inductive Token.Spelling : Token → List Char → Prop
  | punctuation {c : Char} {t : Token} : punctuation? c = some t → Spelling t [c]
  | word {word : String} {s : Scalar} :
      (word, s) ∈ Scalar.words → Spelling (.scalar s) word.toList
  | number {numeral : String} : Numeral.IsNumeral numeral.toList →
      Spelling (.scalar (.number numeral)) numeral.toList
  | string {content : Content} {body : List Char} : Quoted.HasContent content body →
      Spelling (.scalar (.str content)) ('"' :: (body ++ ['"']))

/-- The text is made of the tokens and of space. -/
inductive Spells : List Token → List Char → Prop
  | nil {space : List Char} : space.all isSpace → Spells [] space
  | cons {t : Token} {ts : List Token} {space w s : List Char} :
      space.all isSpace → t.Spelling w → Spells ts s → Spells (t :: ts) (space ++ (w ++ s))

section
variable {t : Token} {ts us : List Token} {s u w : List Char}

theorem Spells.space {blank : List Char} (hs : blank.all isSpace) (h : Spells ts s) : Spells ts (blank ++ s) := by
  cases h with
  | nil hs' => exact .nil (by rw [List.all_append, hs, hs']; rfl)
  | cons hs' hw h =>
    rw [← List.append_assoc]
    exact .cons (by rw [List.all_append, hs, hs']; rfl) hw h

theorem Spells.append (h : Spells ts s) (h' : Spells us u) : Spells (ts ++ us) (s ++ u) := by
  induction h with
  | nil hs => exact h'.space hs
  | cons hs hw _ ih =>
    rw [List.cons_append, List.append_assoc, List.append_assoc]
    exact .cons hs hw ih

theorem Spells.token (hw : t.Spelling w) (h : Spells ts s) : Spells (t :: ts) (w ++ s) :=
  .cons (show ([] : List Char).all isSpace from rfl) hw h

theorem Spells.single (hw : t.Spelling w) : Spells [t] w := by
  have hnil : Spells [] [] := .nil rfl
  have h := hnil.token hw
  rwa [List.append_nil] at h

end

/-! ## Tokens are read -/

/-- The token ends in front of the text. Only a number could go on. -/
def Token.EndsBefore : Token → List Char → Prop
  | .scalar (.number _), s => Numeral.Ends s
  | _, _ => True

/-- The text is read as the token, wherever it ends. -/
def Token.ReadFrom (t : Token) (w : List Char) : Prop :=
  ∃ c u, w = c :: u ∧ isSpace c = false ∧
    ∀ s, t.EndsBefore s → Token.read? c (u ++ s) = some (t, s)

section
variable {t : Token} {ts us : List Token} {s u w : List Char}

theorem Token.endsBefore_of_ends (t : Token) (h : Numeral.Ends s) : t.EndsBefore s := by
  rw [Token.EndsBefore.eq_def]
  split
  · exact h
  · trivial

/-- A sign is not space, and no number goes on with it. -/
theorem Token.apart_of_punctuation? {c : Char} (h : punctuation? c = some t) :
    isSpace c = false ∧ Numeral.continues c = false := by
  have hc : c ∈ ['[', ']', '\x7b', '\x7d', ',', ':'] := by
    by_contra hc
    simp only [List.mem_cons, List.not_mem_nil, or_false, not_or] at hc
    simp [punctuation?, hc] at h
  simp only [List.mem_cons, List.not_mem_nil, or_false] at hc
  rcases hc with rfl | rfl | rfl | rfl | rfl | rfl <;> exact ⟨rfl, rfl⟩

theorem Token.readFrom_punctuation {c : Char} (h : punctuation? c = some t) : t.ReadFrom [c] :=
  ⟨c, [], rfl, (apart_of_punctuation? h).1, fun s _ => by rw [Token.read?, h]; rfl⟩

theorem Token.readFrom_word {word : String} {s : Scalar} (h : (word, s) ∈ Scalar.words) :
    (Token.scalar s).ReadFrom word.toList := by
  simp only [Scalar.words, List.mem_cons, Prod.mk.injEq, List.not_mem_nil, or_false] at h
  rcases h with ⟨rfl, rfl⟩ | ⟨rfl, rfl⟩ | ⟨rfl, rfl⟩
  · exact ⟨'n', ['u', 'l', 'l'], String.toList_ofList, rfl, fun s _ => rfl⟩
  · exact ⟨'t', ['r', 'u', 'e'], String.toList_ofList, rfl, fun s _ => rfl⟩
  · exact ⟨'f', ['a', 'l', 's', 'e'], String.toList_ofList, rfl, fun s _ => rfl⟩

/-- A character that a numeral may start with. -/
def startsNumeral (c : Char) : Bool := c = '-' || isAsciiDigit c

theorem startsNumeral_of_read? {c : Char} {s r : List Char} {numeral : String}
    (h : Numeral.read? (c :: s) = some (numeral, r)) : startsNumeral c = true := by
  by_contra hn
  simp only [startsNumeral, Bool.or_eq_true, decide_eq_true_eq, not_or] at hn
  have hz : c ≠ '0' := fun hz => hn.2 (hz ▸ rfl)
  have hi : Numeral.integer? (Numeral.sign (c :: s)).2 = none := by
    simp [Numeral.sign, Numeral.integer?, run?, hn.1, hn.2, hz]
  rw [Numeral.read?, hi] at h
  cases h

/-- No token but a number starts like a numeral. -/
theorem not_startsNumeral {c : Char} (hc : startsNumeral c = true) :
    isSpace c = false ∧ Token.punctuation? c = none ∧ c ≠ '"' ∧ c ≠ 'n' ∧ c ≠ 't' ∧ c ≠ 'f' := by
  have ne (d : Char) (hd : startsNumeral d = false) : c ≠ d := by
    rintro rfl
    exact absurd (hc.symm.trans hd) (by decide)
  simp [isSpace, Token.punctuation?, ne ' ' rfl, ne '\t' rfl, ne '\n' rfl, ne '\r' rfl, ne '[' rfl,
    ne ']' rfl, ne '\x7b' rfl, ne '\x7d' rfl, ne ',' rfl, ne ':' rfl, ne '"' rfl, ne 'n' rfl,
    ne 't' rfl, ne 'f' rfl]

theorem readScalar?_of_startsNumeral {c : Char} (hc : startsNumeral c = true) (s : List Char) :
    Scalar.read? (c :: s) = (Numeral.read? (c :: s)).map fun r => (.number r.1, r.2) := by
  obtain ⟨-, -, -, hn, ht, hf⟩ := not_startsNumeral hc
  simp [Scalar.read?, Scalar.words, after?, Ne.symm hn, Ne.symm ht, Ne.symm hf]

theorem Token.readFrom_number {numeral : String} (h : Numeral.IsNumeral numeral.toList) :
    (Token.scalar (.number numeral)).ReadFrom numeral.toList := by
  have hself := Numeral.read?_eq_self_iff.2 h
  cases hl : numeral.toList with
  | nil => rw [hl] at hself; cases hself
  | cons c u =>
    rw [hl] at hself
    have hc := startsNumeral_of_read? hself
    obtain ⟨hs, hp, hq, -⟩ := not_startsNumeral hc
    refine ⟨c, u, rfl, hs, fun s he => ?_⟩
    have hr := Numeral.read?_append he hself
    rw [List.cons_append, List.nil_append] at hr
    rw [Token.read?, hp]
    simp [hq, readScalar?_of_startsNumeral hc, hr]

theorem Token.readFrom_string {content : Content} {body : List Char}
    (h : Quoted.HasContent content body) :
    (Token.scalar (.str content)).ReadFrom ('"' :: (body ++ ['"'])) := by
  refine ⟨'"', _, rfl, rfl, fun s _ => ?_⟩
  have hr := Quoted.read?_of_hasContent h s
  rw [Token.read?, show Token.punctuation? '"' = none from rfl]
  simp only [if_true, List.append_assoc, List.singleton_append, hr, Option.map_some]

/-- A token is read, however it is written. -/
theorem Token.Spelling.readFrom (h : t.Spelling w) : t.ReadFrom w := by
  cases h with
  | punctuation h => exact readFrom_punctuation h
  | word h => exact readFrom_word h
  | number h => exact readFrom_number h
  | string h => exact readFrom_string h

end

/-! ## Scalars stand apart -/

/-- The token is a value without parts. -/
def Token.isScalar : Token → Bool
  | .scalar _ => true
  | _ => false

/-- One of the tokens is a sign. -/
def Separated (t u : Token) : Prop := t.isScalar = false ∨ u.isScalar = false

/-- The first token is a sign. -/
def StartsWithSign (ts : List Token) : Prop := ∀ t ∈ ts.head?, t.isScalar = false

section
variable {t : Token} {ts us : List Token} {s : List Char} {v : Json}

theorem isChain_cons_of_sign (ht : t.isScalar = false) (h : ts.IsChain Separated) :
    (t :: ts).IsChain Separated :=
  List.isChain_cons.2 ⟨fun _ _ => .inl ht, h⟩

theorem isChain_append_of_sign (h : ts.IsChain Separated) (h' : us.IsChain Separated)
    (hu : StartsWithSign us) : (ts ++ us).IsChain Separated :=
  List.isChain_append.2 ⟨h, h', fun _ _ u hu' => .inr (hu u hu')⟩

theorem startsWithSign_itemTokens (items : List Json) (h : StartsWithSign ts) :
    StartsWithSign (itemTokens items ++ ts) := by
  cases items with
  | nil => exact h
  | cons v items => simp [itemTokens, StartsWithSign, Token.isScalar]

theorem startsWithSign_memberTokens (members : List (Content × Json)) (h : StartsWithSign ts) :
    StartsWithSign (memberTokens members ++ ts) := by
  cases members with
  | nil => exact h
  | cons m members => simp [memberTokens, StartsWithSign, Token.isScalar]

theorem isChain_itemTokens {items : List Json}
    (hv : ∀ v ∈ items, (tokens v).IsChain Separated) (h : ts.IsChain Separated)
    (ht : StartsWithSign ts) : (itemTokens items ++ ts).IsChain Separated := by
  induction items with
  | nil => exact h
  | cons v items ih =>
    have hrest := ih fun w hw => hv w (List.mem_cons_of_mem v hw)
    rw [itemTokens, List.cons_append, List.cons_append, List.append_assoc]
    exact isChain_cons_of_sign rfl (isChain_append_of_sign (hv v List.mem_cons_self) hrest
      (startsWithSign_itemTokens items ht))

/-- Behind its key and the colon, the value of a member stands apart. -/
theorem isChain_member {k : Content} (h : ts.IsChain Separated) :
    (.scalar (.str k) :: .colon :: ts).IsChain Separated :=
  List.isChain_cons_cons.2 ⟨.inr rfl, isChain_cons_of_sign rfl h⟩

theorem isChain_memberTokens {members : List (Content × Json)}
    (hv : ∀ m ∈ members, (tokens m.2).IsChain Separated) (h : ts.IsChain Separated)
    (ht : StartsWithSign ts) : (memberTokens members ++ ts).IsChain Separated := by
  induction members with
  | nil => exact h
  | cons m members ih =>
    obtain ⟨k, v⟩ := m
    have hrest := ih fun w hw => hv w (List.mem_cons_of_mem _ hw)
    rw [memberTokens]
    simp only [List.cons_append, List.append_assoc]
    exact isChain_cons_of_sign rfl (isChain_member (isChain_append_of_sign
      (hv (k, v) List.mem_cons_self) hrest (startsWithSign_memberTokens members ht)))

/-- Of two tokens of a value beside one another, one is a sign. -/
theorem separated_tokens (v : Json) : (tokens v).IsChain Separated := by
  induction v using parts_induction with
  | scalar s => exact List.isChain_singleton _
  | arr items ih =>
    have hclose : StartsWithSign [.closeArray] := by simp [StartsWithSign, Token.isScalar]
    cases items with
    | nil => exact isChain_cons_of_sign rfl (List.isChain_singleton _)
    | cons v items =>
      have hrest := isChain_itemTokens (fun w hw => ih w (List.mem_cons_of_mem v hw))
        (List.isChain_singleton Token.closeArray) hclose
      rw [tokens, List.append_assoc, List.cons_append]
      exact isChain_cons_of_sign rfl (isChain_append_of_sign (ih v List.mem_cons_self) hrest
        (startsWithSign_itemTokens items hclose))
  | obj members ih =>
    have hclose : StartsWithSign [.closeObject] := by simp [StartsWithSign, Token.isScalar]
    cases members with
    | nil => exact isChain_cons_of_sign rfl (List.isChain_singleton _)
    | cons m members =>
      obtain ⟨k, v⟩ := m
      have hrest := isChain_memberTokens (fun w hw => ih w (List.mem_cons_of_mem _ hw))
        (List.isChain_singleton Token.closeObject) hclose
      rw [tokens]
      simp only [List.cons_append, List.append_assoc]
      exact isChain_cons_of_sign rfl (isChain_member (isChain_append_of_sign
        (ih (k, v) List.mem_cons_self) hrest (startsWithSign_memberTokens members hclose)))

/-! ## Texts are read -/

theorem continues_of_isSpace {c : Char} (h : isSpace c = true) : Numeral.continues c = false := by
  simp only [isSpace, Bool.or_eq_true, decide_eq_true_eq] at h
  rcases h with ((rfl | rfl) | rfl) | rfl <;> rfl

/-- No number goes on into space, or into a sign. -/
theorem Spells.ends (h : Spells ts s) (ht : StartsWithSign ts) : Numeral.Ends s := by
  have hspace : ∀ {space : List Char} {c : Char} {s : List Char}, (c :: space).all isSpace →
      Numeral.Ends (c :: space ++ s) := fun hs =>
    Numeral.ends_cons (continues_of_isSpace (List.all_eq_true.1 hs _ List.mem_cons_self)) _
  cases h with
  | nil hs =>
    cases s with
    | nil => exact Numeral.ends_nil
    | cons c s => simpa using hspace (s := []) hs
  | @cons t ts space w s hs hw _ =>
    cases space with
    | cons c space => exact hspace hs
    | nil =>
      have hsign := ht t rfl
      cases hw with
      | punctuation hp => exact Numeral.ends_cons (Token.apart_of_punctuation? hp).2 _
      | word | number | string => cases hsign

theorem tokens?_space {space : List Char} (hs : space.all isSpace) (s : List Char) :
    tokens? (space ++ s) = tokens? s := by
  induction space with
  | nil => rfl
  | cons c space ih =>
    rw [List.all_cons, Bool.and_eq_true] at hs
    rw [List.cons_append, tokens?, if_pos hs.1, ih hs.2]

/-- A text has the tokens that it spells, if one of two beside one another is a sign. -/
theorem tokens?_of_spells (h : Spells ts s) (hc : ts.IsChain Separated) :
    tokens? s = some ts := by
  induction h with
  | @nil space hs =>
    have htokens := tokens?_space hs []
    rw [List.append_nil] at htokens
    rw [htokens, tokens?]
  | @cons t ts space w s hs hw h ih =>
    obtain ⟨hhead, hrest⟩ := List.isChain_cons.1 hc
    obtain ⟨c, u, rfl, hcs, hread⟩ := hw.readFrom
    have hends : t.EndsBefore s := by
      cases ht : t.isScalar with
      | true =>
        refine t.endsBefore_of_ends (h.ends fun u hu => ?_)
        exact (hhead u hu).resolve_left (by simp [ht])
      | false => cases t <;> trivial
    rw [tokens?_space hs, List.cons_append, tokens?, if_neg (by simp [hcs])]
    split
    · rename_i heq
      obtain ⟨rfl, rfl⟩ := Prod.mk.inj (Option.some.inj (heq.symm.trans (hread _ hends)))
      rw [ih hrest, Option.map_some]
    · rename_i hn
      exact absurd ((hread _ hends).symm.trans hn) (by simp)

/-- **A value is read from every text that spells it.** -/
theorem read?_of_spells {text : String} (h : Spells (tokens v) text.toList) :
    read? text = some v := by
  rw [read?, tokens?_of_spells h (separated_tokens v), Option.bind_some, ofTokens?_tokens]

end

end CliParity.Json
