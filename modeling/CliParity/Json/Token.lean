import CliParity.Json.Basic
import CliParity.Json.Numeral
import CliParity.Json.Quoted

/-!
# JSON tokens

A document is a sequence of tokens with optional space between them. `tokens?` splits a text into
its tokens; `Json.tokens` lists those of a value. How the tokens are laid out says nothing about the
value.
-/

set_option autoImplicit false

namespace CliParity.Json

open Text

/-- A token of a document. -/
inductive Token
  | openArray
  | closeArray
  | openObject
  | closeObject
  | comma
  | colon
  | scalar (s : Scalar)
  deriving DecidableEq, Repr

/-- The characters that may stand between tokens. -/
def isSpace (c : Char) : Bool := c = ' ' || c = '\t' || c = '\n' || c = '\r'

/-- The tokens of one character. -/
def Token.punctuation? (c : Char) : Option Token :=
  if c = '[' then some .openArray
  else if c = ']' then some .closeArray
  else if c = '\x7b' then some .openObject
  else if c = '\x7d' then some .closeObject
  else if c = ',' then some .comma
  else if c = ':' then some .colon
  else none

/-- The scalars that are written as a word. -/
def Scalar.words : List (String × Scalar) :=
  [("null", .null), ("true", .bool true), ("false", .bool false)]

/-- Reads a word or a number. -/
def Scalar.read? (s : List Char) : Option (Scalar × List Char) :=
  (Scalar.words.findSome? fun (word, value) => (after? word.toList s).map (value, ·)).or
    ((Numeral.read? s).map fun (numeral, rest) => (.number numeral, rest))

/-- Reads the token that starts with `c`. -/
def Token.read? (c : Char) (s : List Char) : Option (Token × List Char) :=
  match Token.punctuation? c with
  | some token => some (token, s)
  | none =>
    if c = '"' then (Quoted.read? s).map fun (content, rest) => (.scalar (.str content), rest)
    else (Scalar.read? (c :: s)).map fun (value, rest) => (.scalar value, rest)

theorem length_of_readScalar? {s rest : List Char} {value : Scalar}
    (h : Scalar.read? s = some (value, rest)) : rest.length < s.length := by
  rcases Option.or_eq_some_iff.1 h with h | ⟨-, h⟩
  · obtain ⟨⟨word, v⟩, hw, ht⟩ := List.exists_of_findSome?_eq_some h
    obtain ⟨r, hr, he⟩ := Option.map_eq_some_iff.1 ht
    obtain ⟨-, rfl⟩ := Prod.mk.injEq .. ▸ he
    have hl := length_of_after? hr
    have hpos : 0 < word.toList.length := by
      simp only [Scalar.words, List.mem_cons, Prod.mk.injEq, List.not_mem_nil, or_false] at hw
      rcases hw with ⟨rfl, -⟩ | ⟨rfl, -⟩ | ⟨rfl, -⟩ <;> decide
    omega
  · obtain ⟨⟨numeral, r⟩, hr, he⟩ := Option.map_eq_some_iff.1 h
    obtain ⟨-, rfl⟩ := Prod.mk.injEq .. ▸ he
    exact Numeral.length_of_read? hr

theorem Token.length_of_read? {c : Char} {s rest : List Char} {token : Token}
    (h : Token.read? c s = some (token, rest)) : rest.length ≤ s.length := by
  unfold Token.read? at h
  split at h
  · obtain ⟨-, rfl⟩ := Prod.mk.injEq .. ▸ Option.some.injEq .. ▸ h
    exact Nat.le_refl _
  · split at h
    · obtain ⟨⟨content, r⟩, hr, he⟩ := Option.map_eq_some_iff.1 h
      obtain ⟨-, rfl⟩ := Prod.mk.injEq .. ▸ he
      exact Nat.le_of_lt (Quoted.length_of_read? hr)
    · obtain ⟨⟨value, r⟩, hr, he⟩ := Option.map_eq_some_iff.1 h
      obtain ⟨-, rfl⟩ := Prod.mk.injEq .. ▸ he
      have := length_of_readScalar? hr
      simp only [List.length_cons] at this
      omega

/-- The tokens of a text; none if it holds something else. -/
def tokens? (s : List Char) : Option (List Token) :=
  match s with
  | [] => some []
  | c :: t =>
    if isSpace c then tokens? t
    else
      match _h : Token.read? c t with
      | some (token, rest) => (tokens? rest).map (token :: ·)
      | none => none
termination_by s.length
decreasing_by
  · simp
  · have := Token.length_of_read? _h
    simp only [List.length_cons]
    omega

/-! ## The tokens of a value -/

mutual

/-- The tokens that a value is written with. -/
def tokens : Json → List Token
  | .scalar s => [.scalar s]
  | .arr [] => [.openArray, .closeArray]
  | .arr (v :: vs) => .openArray :: tokens v ++ itemTokens vs ++ [.closeArray]
  | .obj [] => [.openObject, .closeObject]
  | .obj ((k, v) :: ms) =>
    .openObject :: .scalar (.str k) :: .colon :: tokens v ++ memberTokens ms ++ [.closeObject]

/-- The tokens of the further items of an array. -/
def itemTokens : List Json → List Token
  | [] => []
  | v :: vs => .comma :: tokens v ++ itemTokens vs

/-- The tokens of the further members of an object. -/
def memberTokens : List (Content × Json) → List Token
  | [] => []
  | (k, v) :: ms => .comma :: .scalar (.str k) :: .colon :: tokens v ++ memberTokens ms

end

end CliParity.Json
