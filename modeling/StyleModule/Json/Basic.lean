/-!
# JSON values

`Json` is what a JSON text says: the members of an object are a list in the order of the text, and
a name may be repeated. Numbers are whole numbers or floating point numbers, and the two are told
apart: `1` and `1.0` are different values. `==` compares floating point numbers as numbers, so that
the two zeros are equal.
-/

namespace StyleModule

/-- A JSON value. -/
inductive Json where
  | null
  | bool (value : Bool)
  | int (value : Int)
  | float (value : Float)
  | string (value : String)
  | array (items : List Json)
  | object (members : List (String × Json))
deriving Inhabited

namespace Json

mutual

/-- Whether two values are equal, with the same members in the same order. -/
def beq : Json → Json → Bool
  | null, null => true
  | bool a, bool b => a == b
  | int a, int b => a == b
  | float a, float b => a == b
  | string a, string b => a == b
  | array as, array bs => itemsBeq as bs
  | object as, object bs => membersBeq as bs
  | _, _ => false

/-- Whether two lists of values are equal. -/
def itemsBeq : List Json → List Json → Bool
  | [], [] => true
  | a :: as, b :: bs => beq a b && itemsBeq as bs
  | _, _ => false

/-- Whether two lists of members are equal. -/
def membersBeq : List (String × Json) → List (String × Json) → Bool
  | [], [] => true
  | (j, a) :: as, (k, b) :: bs => j == k && beq a b && membersBeq as bs
  | _, _ => false

end

instance : BEq Json := ⟨beq⟩

/-- The value of the last member with a name. -/
def member? (members : List (String × Json)) (name : String) : Option Json :=
  (members.reverse.find? fun m => m.1 == name).map Prod.snd

/-- The value of the last member with a name, if the value is an object. -/
def get? : Json → String → Option Json
  | object members, name => member? members name
  | _, _ => none

/-- The text of a string. -/
def string? : Json → Option String
  | string s => some s
  | _ => none

end Json

end StyleModule
