import StyleModule.Json.Writer
import StyleModule.Text.Identifier

/-!
# Expressions

The text of a JSON value as an expression of a script, without blanks (`Expression.ofJson`). It
differs from a compact JSON text in the names of members, which stand bare where they are
identifiers. What is no JSON value is put together from the texts of its parts
(`Expression.objectText`, `Expression.arrayText`).
-/

namespace StyleModule.Expression

/-- A name with its colon, bare if it is an identifier and quoted otherwise. -/
def keyText (name : String) : List Char :=
  (if Text.isIdentifier name then name.toList else Text.Quoted.double name) ++ [':']

/-- The literal of an object whose members have the given names and texts. -/
def objectText (members : List (String × List Char)) : List Char :=
  '{' :: (Text.commaSeparated (members.map fun m => keyText m.1 ++ m.2) ++ ['}'])

/-- The literal of a list whose items have the given texts. -/
def arrayText (items : List (List Char)) : List Char := '[' :: (Text.commaSeparated items ++ [']'])

/-- The comma before an item, given the number of items before it. -/
def separator (i : Nat) : List Char := if 0 < i then [','] else []

mutual

/-- The expression for a JSON value. -/
def ofJson : Json → List Char
  | .array items => '[' :: (ofItems 0 items ++ [']'])
  | .object members => '\x7b' :: (ofMembers 0 members ++ ['\x7d'])
  | scalar => scalar.text

/-- The expressions for the values of a list, after so many others. -/
def ofItems : Nat → List Json → List Char
  | _, [] => []
  | i, v :: vs => separator i ++ (ofJson v ++ ofItems (i + 1) vs)

/-- The names of members with the expressions for their values, after so many others. -/
def ofMembers : Nat → List (String × Json) → List Char
  | _, [] => []
  | i, (n, v) :: ms => separator i ++ (keyText n ++ (ofJson v ++ ofMembers (i + 1) ms))

end

end StyleModule.Expression
