import StyleModule.Json.Writer

/-!
# Values in templates

Values are put in as they are, without escapes (`valueText`). A value can also be a condition
(`isTruthy`).
-/

namespace StyleModule.Template

/-! ### Text -/

/-- The texts of values with a comma and a space between them. -/
def spacedText : List (List Char) → List Char
  | [] => []
  | [t] => t
  | t :: ts => t ++ ',' :: ' ' :: spacedText ts

mutual

/-- What is put in for a value. -/
def valueText : Json → List Char
  | .null => []
  | .string s => s.toList
  | .array items => '[' :: (spacedText (valueTexts items) ++ [']'])
  | .object _ => ['[', 'o', 'b', 'j', 'e', 'c', 't', ']']
  | .bool b => Json.boolText b
  | .int n => Json.intText n
  | .float x => Json.floatNotation.write x

/-- What is put in for each of several values. -/
def valueTexts : List Json → List (List Char)
  | [] => []
  | v :: vs => valueText v :: valueTexts vs

end

/-! ### Conditions -/

/-- Whether a float is finite, not zero, and not so small that it has lost bits. -/
def isNormal (x : Float) : Bool :=
  let exponent := x.toBits.toNat / 0x10000000000000 % 0x800
  0 < exponent && exponent < 0x7ff

/-- Whether a value counts as true: it is not null, false or empty, and a number is normal. -/
def isTruthy : Json → Bool
  | .null => false
  | .bool b => b
  | .int n => n != 0
  | .float x => isNormal x
  | .string s => s != ""
  | .array items => !items.isEmpty
  | .object members => !members.isEmpty

/-- Whether a value is a number. -/
def isNumber : Json → Bool
  | .int _ | .float _ => true
  | _ => false

end StyleModule.Template
