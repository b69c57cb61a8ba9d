import StyleModule.Json.Canonical
import StyleModule.Log
import StyleModule.Template.Context
import StyleModule.Template.Value

/-!
# Helpers

A helper turns the values that are handed to it into another value, or decides on the texts of a
block. `helpers` lists them all by name; of these, `js_string` and `js_quote` give string literals.
-/

namespace StyleModule.Template

/-- What a helper is called with. -/
structure Invocation where
  /-- The name of the helper. -/
  helper : String
  /-- The values in order. -/
  values : List Json
  /-- The values by name. -/
  named : List (String × Json)
  /-- What the text of a block is to call the values that the block is about. -/
  names : List String

/-- What comes of a helper. -/
inductive Outcome where
  /-- A value is put in, whatever texts there are. -/
  | value (value : Json)
  /-- The first text of the block is put in. -/
  | first
  /-- The other text of the block is put in. -/
  | other
  /-- The first text of the block is put in once in each of some scopes. -/
  | turns (scopes : List Scope)

/-- What comes of a tag that has no texts. -/
def Outcome.inline : Outcome → Json
  | value v => v
  | _ => .string ""

/-- What a helper does. -/
abbrev Helper := Invocation → Except RenderError Outcome

/-! ### Arguments -/

namespace Invocation

variable (i : Invocation)

/-- A value by its place. -/
def value (place : Nat) : Except RenderError Json :=
  match i.values[place]? with
  | some v => .ok v
  | none => .error (.missingArgument i.helper)

/-- A value by its place, which has to be a whole number of 64 bits with a sign. -/
def integer (place : Nat) : Except RenderError Int := do
  match ← i.value place with
  | .int n =>
    if -0x8000000000000000 ≤ n ∧ n < 0x8000000000000000 then return n
    else throw (.invalidArgument i.helper)
  | _ => throw (.invalidArgument i.helper)

/-- The first value if it is a string, and otherwise the empty string. -/
def string : String := (i.values.head?.bind Json.string?).getD ""

end Invocation

namespace Helper

/-! ### Functions -/

/-- The result of a function of the first value. -/
def unary (f : Json → Json) : Helper := fun i => do
  return .value (f (← i.value 0))

/-- The result of a function of the first two values. -/
def binary (f : Json → Json → Json) : Helper := fun i => do
  return .value (f (← i.value 0) (← i.value 1))

/-- A comparison of the first two values as whole numbers. -/
def compare (holds : Int → Int → Bool) : Helper := fun i => do
  return .value (.bool (holds (← i.integer 0) (← i.integer 1)))

/-- A string literal. -/
def quote (write : String → List Char) : Helper := fun i =>
  .ok (.value (.string (String.ofList (write i.string))))

/-- Whether two values are equal, in whatever order the members of objects are. -/
def equal (a b : Json) : Bool := a.canonical == b.canonical

/-- The number of bytes of a string, of items of a list or of members of an object. -/
def length : Json → Nat
  | .string s => s.utf8ByteSize
  | .array items => items.length
  | .object members => (Json.canonicalMembers members).length
  | _ => 0

/-- An item by its number, or a member by its name. -/
def part : Json → Json → Json
  | .array items, .int (.ofNat n) => items[n]?.getD .null
  | .object members, .string name => (Json.member? members name).getD .null
  | _, _ => .null

/-! ### Blocks -/

/-- Which text is put in depends on whether the first value counts as true. All numbers do so if
this is asked for. -/
def choice (takesFirst : Bool) : Helper := fun i => do
  let v ← i.value 0
  let numbersCount := match i.named.lookup "includeZero" with
    | some (.bool b) => b
    | _ => false
  return if (numbersCount && isNumber v || isTruthy v) = takesFirst then .first else .other

/-- The names for the value of a turn and for its place. -/
def turnNames (value place : Json) : List String → List (String × Json)
  | [v] => [(v, value)]
  | [v, p] => [(p, place), (v, value)]
  | _ => []

/-- One turn for each of some values, each with its place under the given name. -/
def turns (placeName : String) (names : List String) (values : List (Json × Json)) : Outcome :=
  .turns <| values.zipIdx.map fun ((place, value), n) =>
    { value, names := turnNames value place names,
      turn := [(placeName, place), ("first", .bool (n == 0)),
        ("last", .bool (n + 1 == values.length))] }

/-- A turn for each item of a list, or for each member of an object by ascending name. -/
def each : Helper := fun i => do
  match ← i.value 0 with
  | .array (v :: vs) =>
    return turns "index" i.names ((v :: vs).zipIdx.map fun (v, n) => (.int n, v))
  | .object (m :: ms) =>
    return turns "key" i.names
      ((Json.canonicalMembers (m :: ms)).map fun (name, v) => (.string name, v))
  | _ => return .other

/-- One turn for a value that counts as true. -/
def about : Helper := fun i => do
  let v ← i.value 0
  let names := match i.names with
    | [name] => [(name, v)]
    | _ => []
  return if isTruthy v then .turns [{ value := v, names }] else .other

/-- Nothing, if the level that may be given is one. -/
def log : Helper := fun i =>
  match i.named.lookup "level" with
  | some (.string word) =>
    match Log.Level.ofName? word with
    | none | some .off => .error (.invalidArgument i.helper)
    | some _ => .ok (.value (.string ""))
  | _ => .ok (.value (.string ""))

end Helper

/-! ### Names -/

/-- The helpers by name. -/
def helpers : List (String × Helper) :=
  [("js_string", .quote Text.Quoted.double), ("js_quote", .quote Text.Quoted.single),
    ("if", .choice true), ("unless", .choice false), ("each", .each), ("with", .about),
    ("raw", fun _ => .ok .first), ("log", .log), ("lookup", .binary Helper.part),
    ("len", .unary fun v => .int (Helper.length v)),
    ("eq", .binary fun a b => .bool (Helper.equal a b)),
    ("ne", .binary fun a b => .bool !(Helper.equal a b)),
    ("gt", .compare (· > ·)), ("gte", .compare (· ≥ ·)),
    ("lt", .compare (· < ·)), ("lte", .compare (· ≤ ·)),
    ("and", .binary fun a b => .bool (isTruthy a && isTruthy b)),
    ("or", .binary fun a b => .bool (isTruthy a || isTruthy b)),
    ("not", .unary fun v => .bool !(isTruthy v))]

/-- The helper of a name. -/
def helper? (name : String) : Option Helper := helpers.lookup name

/-- Call the helper of a name. -/
def Invocation.run (i : Invocation) : Except RenderError Outcome :=
  match helper? i.helper with
  | some h => h i
  | none => .error (.unknownHelper i.helper)

end StyleModule.Template
