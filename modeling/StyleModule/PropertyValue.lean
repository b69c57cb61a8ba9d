import StyleModule.Json.Canonical

/-!
# Values of style properties

The value of a style property is a member of the runtime's `StyleSheet`, or a literal. In JSON the
former is written as an object with the name of the member, `{"styleSheet": name}`, and the latter
as itself, so it depends on its form what a JSON value is read as (`PropertyValue.ofJson`).
-/

namespace StyleModule

/-- A JSON value whose objects list their members by ascending name. -/
structure Literal where
  /-- The value. -/
  json : Json
  /-- In every object the names ascend. -/
  isCanonical : json.IsCanonical

namespace Literal

@[ext] theorem ext {a b : Literal} (h : a.json = b.json) : a = b := by
  cases a; cases b; simpa using h

/-- The literal that a JSON value stands for. -/
def ofJson (v : Json) : Literal := ⟨v.canonical, v.isCanonical_canonical⟩

instance : BEq Literal := ⟨fun a b => a.json == b.json⟩

@[simp] theorem ofJson_json (l : Literal) : ofJson l.json = l :=
  Literal.ext (Json.canonical_eq_self l.isCanonical)

end Literal

/-- The value of a style property. -/
inductive PropertyValue where
  /-- A member of the runtime's `StyleSheet`. -/
  | member (name : String)
  /-- A plain value. -/
  | literal (value : Literal)

namespace PropertyValue

/-- Whether two values are equal: a member is never equal to a literal. -/
def beq : PropertyValue → PropertyValue → Bool
  | member a, member b => a == b
  | literal a, literal b => a == b
  | _, _ => false

instance : BEq PropertyValue := ⟨beq⟩

/-- The field that names a member of the `StyleSheet`. -/
def memberField : String := "styleSheet"

/-- The name of a member, if the JSON value has the form of one: an object with the name as its only
member, or a list of the name alone. -/
def memberName? : Json → Option String
  | .object [(field, .string name)] => if field = memberField then some name else none
  | .array [.string name] => some name
  | _ => none

/-- The value that a JSON value is read as. -/
def ofJson (v : Json) : PropertyValue :=
  match memberName? v with
  | some name => member name
  | none => literal (.ofJson v)

/-- The JSON value that is written for a value. -/
def toJson : PropertyValue → Json
  | member name => .object [(memberField, .string name)]
  | literal l => l.json

/-- A string. -/
def ofString (s : String) : PropertyValue := literal (.ofJson (.string s))

/-- A whole number. -/
def ofInt (n : Int) : PropertyValue := literal (.ofJson (.int n))

/-- A floating point number, or the empty value in place of one that is not finite. -/
def ofFloat (x : Float) : PropertyValue :=
  literal (.ofJson (if x.isFinite then .float x else .null))

end PropertyValue

end StyleModule
