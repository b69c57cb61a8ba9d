import StyleModule.Decimal.Notation
import StyleModule.Json.Basic
import StyleModule.Text.Quoted
import StyleModule.Text.Separated

/-!
# Compact JSON texts

`Json.compact` writes a value without any blanks, members and items in their order.
-/

namespace StyleModule.Json

/-- JSON numbers have a power of ten if the first digit stands for `10 ^ 16` or more or for less
than `10 ^ -5`. -/
def floatNotation : Decimal.Notation := ⟨-5, 15⟩

/-- The decimal digits of an integer, after a sign if it is negative. -/
def intText : Int → List Char
  | .ofNat n => Nat.toDigits 10 n
  | .negSucc n => '-' :: Nat.toDigits 10 (n + 1)

/-- A keyword for each truth value. -/
def boolText : Bool → List Char
  | true => ['t', 'r', 'u', 'e']
  | false => ['f', 'a', 'l', 's', 'e']

/-- The keyword of the empty value. -/
def nullText : List Char := ['n', 'u', 'l', 'l']

mutual

/-- The characters of the compact text of a value. -/
def text : Json → List Char
  | null => nullText
  | bool b => boolText b
  | int n => intText n
  | float x => floatNotation.write x
  | string s => Text.Quoted.double s
  | array items => '[' :: (Text.commaSeparated (itemTexts items) ++ [']'])
  | object members => '{' :: (Text.commaSeparated (memberTexts members) ++ ['}'])

/-- The texts of the values of a list. -/
def itemTexts : List Json → List (List Char)
  | [] => []
  | v :: vs => text v :: itemTexts vs

/-- The texts of the members of an object: the quoted name, a colon and the value. -/
def memberTexts : List (String × Json) → List (List Char)
  | [] => []
  | (n, v) :: ms => (Text.Quoted.double n ++ ':' :: text v) :: memberTexts ms

end

/-- The compact text of a value. -/
def compact (v : Json) : String := String.ofList v.text

end StyleModule.Json
