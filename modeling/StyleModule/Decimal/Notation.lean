import StyleModule.Decimal.Shortest

/-!
# Writing floating point numbers

`Notation.write` gives the text of a finite floating point number: its shortest digits, with a point
among them if the first digit's place is within the bounds of the notation, and otherwise with one
digit before the point and an explicit power of ten.
-/

namespace StyleModule.Decimal

/-- The first digit's places that are written without a power of ten. -/
structure Notation where
  /-- The least place. -/
  least : Int
  /-- The greatest place. -/
  greatest : Int
deriving DecidableEq, Repr

namespace Notation

/-- Digits with a point after the place `place` of the first one, and a zero wherever a side of the
point would stay empty. -/
def positional (digits : List Char) (place : Int) : List Char :=
  if place < 0 then '0' :: '.' :: (List.replicate (-place - 1).toNat '0' ++ digits)
  else
    let whole := place.toNat + 1
    let fraction := digits.drop whole
    digits.take whole ++ List.replicate (whole - digits.length) '0' ++
      '.' :: (if fraction.isEmpty then ['0'] else fraction)

/-- Digits with a point after the first one, if there are others, and the power of ten that the
first one counts, always with its sign. -/
def scientific (digits : List Char) (place : Int) : List Char :=
  let fraction := digits.drop 1
  digits.take 1 ++ (if fraction.isEmpty then [] else '.' :: fraction) ++
    'e' :: (if place < 0 then '-' else '+') :: Nat.toDigits 10 place.natAbs

/-- The text of a decimal that is not zero. -/
def digitsAt (f : Notation) (d : Decimal) : List Char :=
  let digits := Nat.toDigits 10 d.digits
  let place := d.exponent + digits.length - 1
  if f.least ≤ place ∧ place ≤ f.greatest then positional digits place
  else scientific digits place

/-- The text of a finite number. -/
def write (f : Notation) (x : Float) : List Char :=
  let bits := x.toBits.toNat
  let b := Binary.ofBits bits
  let sign := if bits / 0x8000000000000000 % 2 = 1 then ['-'] else []
  sign ++ if b.significand = 0 then ['0', '.', '0'] else f.digitsAt (b.shortest.strip 17)

end Notation

end StyleModule.Decimal
