import StyleModule.Json.Error

/-!
# Numbers in JSON texts

`Numeral.scan` takes the spelling of a number apart, and `Numeral.value` says what it stands for.

A number without fraction and exponent is a whole number if it fits into 64 bits, with a sign bit
if it is negative; minus zero, and any other number, is a floating point number. Of the digits of
such a number those are used that fit into 64 bits, and the float nearest to them is multiplied or
divided by the float nearest to a power of ten (`scaled?`), so that it may differ in its last bits
from the float nearest to the number.
-/

namespace StyleModule.Json

/-- A number as it is spelled. -/
structure Numeral where
  /-- Whether there is a minus sign. -/
  isNegative : Bool
  /-- The digits before the point. -/
  whole : List Char
  /-- The digits after the point, none if there is no point. -/
  fraction : List Char
  /-- Whether the exponent has a minus sign, and its digits. -/
  exponent : Option (Bool × List Char)
deriving DecidableEq

namespace Numeral

/-! ### Spelling -/

/-- The digits at the front of a text, and what follows them. -/
def spanDigits (s : List Char) : List Char × List Char :=
  (s.takeWhile Char.isDigit, s.dropWhile Char.isDigit)

/-- The digits before the point: a single zero, or digits that do not start with one. At the end of
the text the reader fails for `atEnd`. -/
def scanWhole (atEnd : Cause) : Reader (List Char)
  | [] => .error (.placed atEnd [] 0)
  | '0' :: r =>
    match r with
    | c :: _ => if c.isDigit then .error (.placed .invalidNumber r 1) else .ok (['0'], r)
    | [] => .ok (['0'], [])
  | c :: r =>
    if c.isDigit then .ok (spanDigits (c :: r)) else .error (.placed .invalidNumber (c :: r) 1)

/-- The point and the digits after it, if there is a point. -/
def scanFraction (atEnd : Cause) : Reader (List Char)
  | '.' :: r =>
    match spanDigits r with
    | ([], []) => .error (.placed atEnd [] 1)
    | ([], r) => .error (.placed .invalidNumber r 1)
    | (digits, r) => .ok (digits, r)
  | r => .ok ([], r)

/-- The sign of an exponent, if there is one. -/
def scanSign : List Char → Bool × List Char
  | '+' :: r => (false, r)
  | '-' :: r => (true, r)
  | r => (false, r)

/-- The exponent with its letter, if there is one. -/
def scanExponent (atEnd : Cause) (s : List Char) :
    Except Failure (Option (Bool × List Char) × List Char) :=
  match s with
  | c :: r =>
    if c = 'e' ∨ c = 'E' then
      let (isNegative, r) := scanSign r
      match spanDigits r with
      | ([], []) => .error (.placed atEnd [] 0)
      | ([], r) => .error (.placed .invalidNumber r 1)
      | (digits, r) => .ok (some (isNegative, digits), r)
    else .ok (none, s)
  | [] => .ok (none, [])

/-- A number at the front of a text. -/
def scan (atEnd : Cause) : Reader Numeral := fun s => do
  let (isNegative, s) := match s with
    | '-' :: r => (true, r)
    | _ => (false, s)
  let (whole, s) ← scanWhole atEnd s
  let (fraction, s) ← scanFraction atEnd s
  let (exponent, s) ← scanExponent atEnd s
  return (⟨isNegative, whole, fraction, exponent⟩, s)

/-! ### Value -/

/-- The number that a digit stands for. -/
def digitValue (c : Char) : Nat := c.toNat - '0'.toNat

/-- Append digits to a number until it would exceed the limit: the number and how many digits were
left over. -/
def gather (limit : Nat) : Nat → List Char → Nat × Nat
  | n, [] => (n, 0)
  | n, d :: ds =>
    if limit < 10 * n + digitValue d then (n, ds.length + 1)
    else gather limit (10 * n + digitValue d) ds

/-- The greatest whole number. -/
def maxUnsigned : Nat := 0xffffffffffffffff

/-- The greatest exponent. -/
def maxExponent : Nat := 0x7fffffff

/-- An exponent, or the nearest one that fits into 32 bits. -/
def clampExponent (e : Int) : Int := max (-0x80000000) (min e maxExponent)

/-- The float nearest to a power of ten. -/
def powerOfTen (k : Nat) : Float := Float.ofScientific 1 false k

/-- A float times a power of ten, in steps of at most `10 ^ 308`; none if it is too great. -/
def scaled? (x : Float) (e : Int) : Option Float :=
  if e.natAbs ≤ 308 then
    if e < 0 then some (x / powerOfTen e.natAbs)
    else
      let y := x * powerOfTen e.natAbs
      if y.isInf then none else some y
  else if x == 0 then some x
  else if 0 < e then none
  else scaled? (x / powerOfTen 308) (e + 308)
termination_by (-e).toNat

variable (n : Numeral)

/-- The significand in 64 bits, and the power of ten it counts before the exponent is applied. -/
def significand : Nat × Int :=
  let (whole, extra) := gather maxUnsigned 0 n.whole
  let (all, unused) := gather maxUnsigned whole n.fraction
  (all, (extra : Int) - (n.fraction.length - unused : Nat))

/-- Whether the number is spelled as a whole number that fits into 64 bits. -/
def isWhole : Bool :=
  n.fraction.isEmpty && n.exponent.isNone && (gather maxUnsigned 0 n.whole).2 = 0

/-- The float that the number stands for, without its sign. What follows the number is needed to
tell where reading stops if an exponent is too great. -/
def magnitude (rest : List Char) : Except Failure Float :=
  let (digits, e) := n.significand
  let unscaled := digits.toUInt64.toFloat
  let scaleBy (e : Int) : Except Failure Float :=
    match scaled? unscaled e with
    | some x => .ok x
    | none => .error (.placed .numberOutOfRange rest 0)
  match n.exponent with
  | none => scaleBy e
  | some (isNegative, ds) =>
    match gather maxExponent 0 ds with
    | (k, 0) => scaleBy (clampExponent (if isNegative then e - k else e + k))
    | (_, unused + 1) =>
      if digits ≠ 0 ∧ !isNegative then
        .error (.placed .numberOutOfRange (ds.drop (ds.length - unused) ++ rest) 0)
      else .ok 0

/-- What a number stands for. -/
def value (rest : List Char) : Except Failure Json :=
  let digits := (gather maxUnsigned 0 n.whole).1
  if n.isWhole && !n.isNegative then .ok (.int digits)
  else if n.isWhole && 0 < digits && digits ≤ 0x8000000000000000 then .ok (.int (-digits))
  else (n.magnitude rest).map fun x => .float (if n.isNegative then -x else x)

end Numeral

/-- A number, read in full. -/
def number : Reader Json := fun s => do
  let (n, s) ← Numeral.scan .endInValue s
  let v ← n.value s
  return (v, s)

end StyleModule.Json
