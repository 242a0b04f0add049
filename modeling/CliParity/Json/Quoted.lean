/-!
# JSON strings

`write` puts a text between quotation marks and escapes what has to be escaped. `read?` takes the
characters after the opening mark. Its result tells apart the text of the string and a string that
is well formed but has no text: one with a `\u` escape for half of a surrogate pair and not the
other half.

A string is read in two steps: `readUnits?` undoes the escapes, `joinUnits?` joins surrogate pairs.
-/

set_option autoImplicit false

namespace CliParity.Json.Quoted

/-! ## Writing -/

/-- A hexadecimal digit, in lower case. -/
def hexDigit (n : Nat) : Char := if n < 10 then Char.ofNat (48 + n) else Char.ofNat (87 + n)

/-- A character of a string as it is written: only quotation marks, backslashes and the control
characters below the blank are escaped. -/
def escape (c : Char) : List Char :=
  if c = '"' then ['\\', '"']
  else if c = '\\' then ['\\', '\\']
  else if c = '\n' then ['\\', 'n']
  else if c = '\r' then ['\\', 'r']
  else if c = '\t' then ['\\', 't']
  else if c = '\x08' then ['\\', 'b']
  else if c = '\x0c' then ['\\', 'f']
  else if c.toNat < 0x20 then
    ['\\', 'u', '0', '0', hexDigit (c.toNat / 16), hexDigit (c.toNat % 16)]
  else [c]

/-- A text as a JSON string. -/
def write (text : List Char) : List Char := '"' :: (text.flatMap escape ++ ['"'])

/-! ## Reading -/

/-- A part of a string: a character as such, or the code unit of a `\u` escape. -/
inductive Part
  | char (c : Char)
  | unit (n : Nat)
  deriving DecidableEq, Repr

/-- The value of a hexadecimal digit of either case. -/
def hexValue? (c : Char) : Option Nat :=
  if '0' ≤ c ∧ c ≤ '9' then some (c.toNat - 48)
  else if 'a' ≤ c ∧ c ≤ 'f' then some (c.toNat - 87)
  else if 'A' ≤ c ∧ c ≤ 'F' then some (c.toNat - 55)
  else none

/-- The code unit of four hexadecimal digits. -/
def codeUnit? (a b c d : Char) : Option Nat := do
  let a ← hexValue? a
  let b ← hexValue? b
  let c ← hexValue? c
  let d ← hexValue? d
  return ((a * 16 + b) * 16 + c) * 16 + d

/-- The character of an escape of one letter. -/
def unescape? (c : Char) : Option Char :=
  if c = '"' then some '"'
  else if c = '\\' then some '\\'
  else if c = '/' then some '/'
  else if c = 'n' then some '\n'
  else if c = 'r' then some '\r'
  else if c = 't' then some '\t'
  else if c = 'b' then some '\x08'
  else if c = 'f' then some '\x0c'
  else none

/-- The parts of a string up to its closing mark, and the rest after it. A control character below
the blank must not stand in a string as such. -/
def readUnits? : List Char → Option (List Part × List Char)
  | [] => none
  | '"' :: s => some ([], s)
  | '\\' :: 'u' :: a :: b :: c :: d :: s => do
    let n ← codeUnit? a b c d
    let (parts, rest) ← readUnits? s
    return (.unit n :: parts, rest)
  | '\\' :: e :: s => do
    let c ← unescape? e
    let (parts, rest) ← readUnits? s
    return (.char c :: parts, rest)
  | c :: s =>
    if 0x20 ≤ c.toNat ∧ c ≠ '\\' then do
      let (parts, rest) ← readUnits? s
      return (.char c :: parts, rest)
    else none

/-- The code unit is the first half of a surrogate pair. -/
def isLeading (n : Nat) : Bool := decide (0xD800 ≤ n) && decide (n < 0xDC00)

/-- The code unit is the second half of a surrogate pair. -/
def isTrailing (n : Nat) : Bool := decide (0xDC00 ≤ n) && decide (n < 0xE000)

/-- The character of a surrogate pair. -/
def ofPair (leading trailing : Nat) : Char :=
  Char.ofNat (0x10000 + (leading - 0xD800) * 0x400 + (trailing - 0xDC00))

/-- The text of the parts; none if half of a surrogate pair stands without the other half. -/
def joinUnits? : List Part → Option (List Char)
  | [] => some []
  | .char c :: parts => (joinUnits? parts).map (c :: ·)
  | .unit n :: .unit m :: parts =>
    if isLeading n then
      if isTrailing m then (joinUnits? parts).map (ofPair n m :: ·) else none
    else if isTrailing n then none
    else (joinUnits? (.unit m :: parts)).map (Char.ofNat n :: ·)
  | .unit n :: parts =>
    if isLeading n || isTrailing n then none else (joinUnits? parts).map (Char.ofNat n :: ·)

/-- Reads a string whose opening mark has been read: its text, if it has one, and the rest. -/
def read? (s : List Char) : Option (Option String × List Char) :=
  (readUnits? s).map fun (parts, rest) => ((joinUnits? parts).map String.ofList, rest)

theorem length_of_readUnits? {s rest : List Char} {parts : List Part}
    (h : readUnits? s = some (parts, rest)) : rest.length < s.length := by
  fun_induction readUnits? s generalizing parts with
  | case1 => simp at h
  | case2 s => simp_all
  | case3 a b c d s ih =>
    simp only [Option.bind_eq_bind, Option.bind_eq_some_iff, Prod.exists, Option.pure_def,
      Option.some.injEq, Prod.mk.injEq] at h
    obtain ⟨-, -, ps, r, hr, -, rfl⟩ := h
    have := ih hr
    simp only [List.length_cons]
    omega
  | case4 e s _ ih =>
    simp only [Option.bind_eq_bind, Option.bind_eq_some_iff, Prod.exists, Option.pure_def,
      Option.some.injEq, Prod.mk.injEq] at h
    obtain ⟨-, -, ps, r, hr, -, rfl⟩ := h
    have := ih hr
    simp only [List.length_cons]
    omega
  | case5 c s _ _ _ _ ih =>
    simp only [Option.bind_eq_bind, Option.bind_eq_some_iff, Prod.exists, Option.pure_def,
      Option.some.injEq, Prod.mk.injEq] at h
    obtain ⟨ps, r, hr, -, rfl⟩ := h
    have := ih hr
    simp only [List.length_cons]
    omega
  | case6 => cases h

theorem length_of_read? {s rest : List Char} {text : Option String}
    (h : read? s = some (text, rest)) : rest.length < s.length := by
  obtain ⟨⟨parts, r⟩, hr, he⟩ := Option.map_eq_some_iff.1 h
  obtain ⟨-, rfl⟩ := Prod.mk.injEq .. ▸ he
  exact length_of_readUnits? hr

end CliParity.Json.Quoted
