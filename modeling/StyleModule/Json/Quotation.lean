import StyleModule.Json.Error

/-!
# Strings in JSON texts

`quotation` reads the rest of a string after its opening quote. `passQuotation` only looks for its
end: there a pair of escapes need not make up a character.
-/

namespace StyleModule.Json

/-! ### Escapes -/

/-- The number a hexadecimal digit stands for. -/
def hexDigit? (c : Char) : Option Nat :=
  if c.isDigit then some (c.toNat - '0'.toNat)
  else if 'a' ≤ c ∧ c ≤ 'f' then some (c.toNat - 'a'.toNat + 10)
  else if 'A' ≤ c ∧ c ≤ 'F' then some (c.toNat - 'A'.toNat + 10)
  else none

/-- The number four hexadecimal digits stand for. -/
def fourHex? (a b c d : Char) : Option Nat := do
  let a ← hexDigit? a
  let b ← hexDigit? b
  let c ← hexDigit? c
  let d ← hexDigit? d
  return ((a * 16 + b) * 16 + c) * 16 + d

/-- Why four bytes are not four hexadecimal digits: there are fewer, or others. -/
def notFourHex (s : List Char) : Failure :=
  if Failure.byteCount s < 4 then .placed .endInString [] 0 else .placed .invalidEscape s 4

/-- Four hexadecimal digits. -/
def fourHex : Reader Nat
  | a :: b :: c :: d :: r =>
    match fourHex? a b c d with
    | some n => .ok (n, r)
    | none => .error (notFourHex (a :: b :: c :: d :: r))
  | s => .error (notFourHex s)

/-- Whether a number is the first half of a pair that makes up one character. -/
def isHighHalf (n : Nat) : Bool := 0xd800 ≤ n && n < 0xdc00

/-- Whether a number is the second half of a pair that makes up one character. -/
def isLowHalf (n : Nat) : Bool := 0xdc00 ≤ n && n < 0xe000

/-- The character that two halves make up. -/
def pairChar (high low : Nat) : Char :=
  Char.ofNat (0x10000 + (high - 0xd800) * 0x400 + (low - 0xdc00))

/-- The second half that must follow a first half. -/
def lowHalf (high : Nat) : Reader Char
  | '\\' :: 'u' :: r => do
    let (low, r) ← fourHex r
    if isLowHalf low then .ok (pairChar high low, r) else .error (.placed .loneSurrogate r 0)
  | ['\\'] => .error (.placed .endInString [] 0)
  | '\\' :: r => .error (.placed .missingSurrogate r 1)
  | [] => .error (.placed .endInString [] 0)
  | r => .error (.placed .missingSurrogate r 1)

/-- The character an escape by number stands for, read after the `u`. -/
def numberedChar : Reader Char := fun s => do
  let (n, s) ← fourHex s
  if isLowHalf n then .error (.placed .loneSurrogate s 0)
  else if isHighHalf n then lowHalf n s
  else .ok (Char.ofNat n, s)

/-- The character an escape by letter stands for. -/
def letterEscape? (c : Char) : Option Char :=
  if c = '"' ∨ c = '\\' ∨ c = '/' then some c
  else if c = 'b' then some '\x08'
  else if c = 'f' then some '\x0c'
  else if c = 'n' then some '\n'
  else if c = 'r' then some '\r'
  else if c = 't' then some '\t'
  else none

/-- The character an escape stands for, read after the backslash. -/
def escapedChar : Reader Char
  | [] => .error (.placed .endInString [] 0)
  | c :: r =>
    if c = 'u' then numberedChar r
    else match letterEscape? c with
      | some d => .ok (d, r)
      | none => .error (.placed .invalidEscape (c :: r) 1)

/-! ### Strings -/

/-- The characters up to the closing quote, of which there are fewer than the bound. -/
def quotedChars : Nat → Reader (List Char)
  | _, [] => .error (.placed .endInString [] 0)
  | 0, s => .error (.placed .endInString s 0)
  | bound + 1, c :: r =>
    if c = '"' then .ok ([], r)
    else if c = '\\' then do
      let (d, r) ← escapedChar r
      let (ds, r) ← quotedChars bound r
      return (d :: ds, r)
    else if c.toNat < 0x20 then .error (.placed .controlCharacter (c :: r) 1)
    else do
      let (ds, r) ← quotedChars bound r
      return (c :: ds, r)

/-- A string, read after its opening quote. -/
def quotation : Reader String := fun s => do
  let (cs, r) ← quotedChars s.length s
  return (String.ofList cs, r)

/-- An escape, passed over after its backslash. -/
def passEscape : Reader Unit
  | [] => .error (.placed .endInString [] 0)
  | c :: r =>
    if c = 'u' then do
      let (_, r) ← fourHex r
      return ((), r)
    else if (letterEscape? c).isSome then .ok ((), r)
    else .error (.placed .invalidEscape (c :: r) 1)

/-- Whatever comes up to the closing quote, fewer characters than the bound. -/
def passQuotedChars : Nat → Reader Unit
  | _, [] => .error (.placed .endInString [] 0)
  | 0, s => .error (.placed .endInString s 0)
  | bound + 1, c :: r =>
    if c = '"' then .ok ((), r)
    else if c = '\\' then do
      let (_, r) ← passEscape r
      passQuotedChars bound r
    else if c.toNat < 0x20 then .error (.placed .controlCharacter (c :: r) 0)
    else passQuotedChars bound r

/-- A string, passed over after its opening quote. -/
def passQuotation : Reader Unit := fun s => passQuotedChars s.length s

end StyleModule.Json
