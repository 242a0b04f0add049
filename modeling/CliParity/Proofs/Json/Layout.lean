import CliParity.Json.Pretty
import CliParity.Proofs.Json.Spelling

/-!
# A value is read back from its layout

A value whose numbers are written as numerals is laid out as its own tokens (`spells_layOut`), and
so it is read back (`read?_pretty`).
-/

set_option autoImplicit false

namespace CliParity.Json

open Text

/-! ## Scalars -/

/-- A number is written as a numeral. -/
def Scalar.Proper : Scalar → Prop
  | number numeral => Numeral.read? numeral.toList = some (numeral, [])
  | _ => True

theorem writeContent_none :
    writeContent none = '"' :: (['\\', 'u', 'd', '8', '0', '0'] ++ ['"']) :=
  String.toList_ofList

theorem spelling_content (content : Content) :
    (Token.scalar (.str content)).Spelling (writeContent content) := by
  cases content with
  | none => exact writeContent_none ▸ .string Quoted.hasContent_surrogate
  | some text =>
    have h := Quoted.hasContent_flatMap_escape text.toList
    rw [String.ofList_toList] at h
    exact .string h

theorem spelling_scalar {s : Scalar} (h : s.Proper) : (Token.scalar s).Spelling s.write := by
  cases s with
  | null => exact .word (show ("null", Scalar.null) ∈ Scalar.words by decide)
  | bool b =>
    cases b with
    | false => exact .word (show ("false", Scalar.bool false) ∈ Scalar.words by decide)
    | true => exact .word (show ("true", Scalar.bool true) ∈ Scalar.words by decide)
  | number numeral => exact .number (Numeral.read?_eq_self_iff.1 h)
  | str content => exact spelling_content content

/-! ## Values -/

/-- The numbers within the value are written as numerals. -/
inductive Proper : Json → Prop
  | scalar {s : Scalar} : s.Proper → Proper (.scalar s)
  | arr {items : List Json} : (∀ v ∈ items, Proper v) → Proper (.arr items)
  | obj {members : List (Content × Json)} : (∀ m ∈ members, Proper m.2) → Proper (.obj members)

theorem proper_str (text : String) : Proper (str text) := .scalar trivial

theorem proper_bool (b : Bool) : Proper (bool b) := .scalar trivial

theorem proper_nat (n : Nat) : Proper (nat n) := by
  refine .scalar ?_
  rw [Scalar.Proper, Numeral.read?_eq_self_iff, String.toList_ofList]
  exact Numeral.isNumeral_toDigits n

theorem proper_ofOption {α : Type} {encode : α → Json} (h : ∀ a, Proper (encode a))
    (a? : Option α) : Proper (ofOption encode a?) := by
  cases a? with
  | none => exact .scalar trivial
  | some a => exact h a

theorem proper_arr {α : Type} {encode : α → Json} (h : ∀ a, Proper (encode a)) (l : List α) :
    Proper (.arr (l.map encode)) :=
  .arr (List.forall_mem_map.2 fun a _ => h a)

theorem proper_object {members : List (String × Json)} (h : ∀ m ∈ members, Proper m.2) :
    Proper (object members) :=
  .obj (List.forall_mem_map.2 h)

/-! ## Layouts -/

section
variable {ts : List Token} {s : List Char}

theorem Spells.newline (depth : Nat) (h : Spells ts s) : Spells ts (newline depth ++ s) := by
  refine h.space (List.all_eq_true.2 fun c hc => ?_)
  rcases List.mem_cons.1 hc with rfl | hc
  · rfl
  · rw [(List.mem_replicate.1 hc).2]
    rfl

theorem spells_layOutItems {depth : Nat} {items : List Json}
    (hv : ∀ v ∈ items, Spells (tokens v) (layOut depth v)) :
    Spells (itemTokens items) (layOutItems depth items) := by
  induction items with
  | nil => exact .nil rfl
  | cons v items ih =>
    have hrest := ih fun w hw => hv w (List.mem_cons_of_mem v hw)
    have hvalue := ((hv v List.mem_cons_self).append hrest).newline depth
    rw [itemTokens, layOutItems]
    simpa using Spells.token (.punctuation (c := ',') rfl) hvalue

/-- A member, and what comes behind it. -/
theorem Spells.member (k : Content) (h : Spells ts s) :
    Spells (.scalar (.str k) :: .colon :: ts) (writeContent k ++ ([':', ' '] ++ s)) := by
  have hvalue : Spells ts ([' '] ++ s) := h.space rfl
  have hcolon := hvalue.token (.punctuation (c := ':') rfl)
  exact hcolon.token (spelling_content k)

theorem spells_layOutMembers {depth : Nat} {members : List (Content × Json)}
    (hv : ∀ m ∈ members, Spells (tokens m.2) (layOut depth m.2)) :
    Spells (memberTokens members) (layOutMembers depth members) := by
  induction members with
  | nil => exact .nil rfl
  | cons m members ih =>
    obtain ⟨k, v⟩ := m
    have hrest := ih fun w hw => hv w (List.mem_cons_of_mem _ hw)
    have hmember := (((hv (k, v) List.mem_cons_self).append hrest).member k).newline depth
    rw [memberTokens, layOutMembers]
    simpa using Spells.token (.punctuation (c := ',') rfl) hmember

/-- A value is laid out as its own tokens. -/
theorem spells_layOut {v : Json} (h : Proper v) (depth : Nat) :
    Spells (tokens v) (layOut depth v) := by
  -- on the value; what is within a list or an object is laid out one level deeper
  induction h generalizing depth with
  | @scalar s hs =>
    rw [tokens, layOut]
    exact .single (spelling_scalar hs)
  | @arr items _ ih =>
    have hclose : Spells [.closeArray] [']'] := .single (.punctuation rfl)
    cases items with
    | nil =>
      rw [tokens, layOut]
      exact .token (.punctuation (c := '[') rfl) hclose
    | cons v items =>
      have hrest := spells_layOutItems fun w hw => ih w (List.mem_cons_of_mem v hw) (depth + 1)
      have hitems := (ih v List.mem_cons_self (depth + 1)).append hrest
      have hbody := (hitems.append (hclose.newline depth)).newline (depth + 1)
      rw [tokens, layOut]
      simpa using Spells.token (.punctuation (c := '[') rfl) hbody
  | @obj members _ ih =>
    have hclose : Spells [.closeObject] ['\x7d'] := .single (.punctuation rfl)
    cases members with
    | nil =>
      rw [tokens, layOut]
      exact .token (.punctuation (c := '\x7b') rfl) hclose
    | cons m members =>
      obtain ⟨k, v⟩ := m
      have hrest := spells_layOutMembers fun w hw =>
        ih w (List.mem_cons_of_mem _ hw) (depth + 1)
      have hmembers := (ih (k, v) List.mem_cons_self (depth + 1)).append hrest
      have hbody := ((hmembers.append (hclose.newline depth)).member k).newline (depth + 1)
      rw [tokens, layOut]
      simpa using Spells.token (.punctuation (c := '\x7b') rfl) hbody

end

/-- The document of a value spells it. -/
theorem spells_pretty {v : Json} (h : Proper v) : Spells (tokens v) v.pretty.toList := by
  rw [pretty, String.toList_ofList]
  exact spells_layOut h 0

/-- **A value is read back from its layout.** -/
theorem read?_pretty {v : Json} (h : Proper v) : read? v.pretty = some v :=
  read?_of_spells (spells_pretty h)

end CliParity.Json
