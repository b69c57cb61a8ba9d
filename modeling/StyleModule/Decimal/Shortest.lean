/-!
# Shortest decimals

A binary number rounds to itself from every real number in an interval around it, so it can be
written with any decimal in that interval. `Binary.shortest` takes one with the fewest digits, the
nearest one if there are several, and the even one of two that are equally near.

A decimal grid has a point in the interval exactly if one of the two grid points next to the
number is in it, so only those two are tried, on finer and finer grids (`Binary.onGrid`). All
arithmetic is on natural numbers.
-/

namespace StyleModule

/-- The number `digits * 10 ^ exponent`. -/
structure Decimal where
  /-- All digits, read as one number. -/
  digits : Nat
  /-- The place of the last digit. -/
  exponent : Int
deriving DecidableEq, Repr

namespace Decimal

/-- The number `significand * 2 ^ exponent`, with the interval that rounds to it. -/
structure Binary where
  /-- The significand, at most 53 bits. -/
  significand : Nat
  /-- The place of the last bit. -/
  exponent : Int
  /-- Whether the next smaller number is only half as far away as the next greater one. -/
  isLowest : Bool
deriving DecidableEq, Repr

namespace Binary

/-- The absolute value of the finite number with the given IEEE 754 double precision bits. -/
def ofBits (bits : Nat) : Binary :=
  let fraction : Nat := bits % 0x10000000000000
  let biased : Nat := bits / 0x10000000000000 % 0x800
  if biased = 0 then ⟨fraction, -1074, false⟩
  else ⟨0x10000000000000 + fraction, (biased : Int) - 1075, fraction = 0 && biased > 1⟩

variable (b : Binary)

/-- The numbers here are counted in quarters of the last bit: this is that unit's numerator. -/
def unitNum : Nat := Nat.pow 2 (b.exponent - 2).toNat

/-- The denominator of a quarter of the last bit. -/
def unitDen : Nat := Nat.pow 2 (2 - b.exponent).toNat

/-- The number, in quarters of its last bit. -/
def quarters : Nat := 4 * b.significand

/-- The lower end of the interval that rounds to the number, in quarters of its last bit. -/
def low : Nat := b.quarters - if b.isLowest then 1 else 2

/-- The upper end of the interval that rounds to the number, in quarters of its last bit. -/
def high : Nat := b.quarters + 2

/-- Whether `c * 10 ^ e` rounds to the number. The ends of the interval belong to it exactly if
the significand is even. -/
def admits (c : Nat) (e : Int) : Bool :=
  let point := c * Nat.pow 10 e.toNat * b.unitDen
  let scale := Nat.pow 10 (-e).toNat * b.unitNum
  if b.significand % 2 = 0 then b.low * scale ≤ point && point ≤ b.high * scale
  else b.low * scale < point && point < b.high * scale

/-- The greatest `c` with `c * 10 ^ e` at most the number. -/
def below (e : Int) : Nat :=
  b.quarters * b.unitNum * Nat.pow 10 (-e).toNat / (b.unitDen * Nat.pow 10 e.toNat)

/-- Whether the upper one of the two grid points `c * 10 ^ e` and `(c + 1) * 10 ^ e` is to be taken
for a number between them: it is nearer, or as near and even. -/
def prefersUpper (c : Nat) (e : Int) : Bool :=
  let twice := 2 * (b.quarters * b.unitNum * Nat.pow 10 (-e).toNat)
  let middle := (2 * c + 1) * (b.unitDen * Nat.pow 10 e.toNat)
  middle < twice || middle = twice && c % 2 = 1

/-- The grid point for the number among the multiples of `10 ^ e`, if one rounds to it. -/
def onGrid (e : Int) : Option Decimal :=
  let c := b.below e
  match b.admits c e, b.admits (c + 1) e with
  | false, false => none
  | true, false => some ⟨c, e⟩
  | false, true => some ⟨c + 1, e⟩
  | true, true => some ⟨if b.prefersUpper c e then c + 1 else c, e⟩

/-- The places after the point up to the first digit of a number between zero and one. -/
def leadingZeros : Nat :=
  ((List.range 400).find? fun k => b.unitDen ≤ b.quarters * b.unitNum * Nat.pow 10 k).getD 400

/-- The place of the first digit of a number that is not zero. -/
def leadingPlace : Int :=
  let whole := b.quarters * b.unitNum / b.unitDen
  if whole = 0 then -b.leadingZeros else (Nat.toDigits 10 whole).length - 1

/-- The first decimal found on the grids whose last places are `place`, `place - 1` and so on. -/
def firstOnGrid : Nat → Int → Decimal
  | 0, place => ⟨b.below place, place⟩
  | n + 1, place => (b.onGrid place).getD (firstOnGrid n (place - 1))

/-- A decimal with the fewest digits that rounds to the number. Seventeen digits always do. -/
def shortest : Decimal := b.firstOnGrid 17 b.leadingPlace

end Binary

/-- Strike the trailing zeros, at most `n` of them. -/
def strip : Nat → Decimal → Decimal
  | 0, d => d
  | n + 1, d =>
    if d.digits ≠ 0 ∧ d.digits % 10 = 0 then strip n ⟨d.digits / 10, d.exponent + 1⟩ else d

end Decimal

end StyleModule
