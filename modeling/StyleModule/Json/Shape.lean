import StyleModule.Json.Reader
import StyleModule.OrderedMap

/-!
# Shapes of JSON values

A `Shape` says what a place in a text admits: which containers, and which other values. A value of
another kind is refused; it is read in full before that, unless it is a container.
-/

namespace StyleModule.Json

variable {α σ : Type}

/-- What a place in a text admits, and what it is called in messages. -/
structure Shape (α : Type) where
  /-- What is expected. -/
  expected : String
  /-- How a list is read after its opening bracket, if it is admitted. -/
  list? : Option (Reader α) := none
  /-- How an object is read after its opening brace, if it is admitted. -/
  object? : Option (Reader α) := none
  /-- What a value that is not a container stands for. -/
  ofScalar : Json → Except Cause α := fun v => .error (.wrongType (.ofScalar v) expected)

namespace Shape

/-- A value of a shape. -/
def read (shape : Shape α) : Reader α := fun s =>
  match dropBlanks s with
  | [] => .error (.placed .endInValue [] 1)
  | c :: r =>
    if c = '[' then
      match shape.list? with
      | some body => body r
      | none => .error (.placed (.wrongType .list shape.expected) (c :: r) 0)
    else if c = '\x7b' then
      match shape.object? with
      | some body => body r
      | none => .error (.placed (.wrongType .object shape.expected) (c :: r) 0)
    else do
      let (v, r) ← scalar (c :: r)
      match shape.ofScalar v with
      | .ok a => return (a, r)
      | .error cause => .error (.placed cause r 0)

/-- A string. -/
def string : Shape String where
  expected := "a string"
  ofScalar
    | .string s => .ok s
    | v => .error (.wrongType (.ofScalar v) "a string")

/-- A truth value. -/
def bool : Shape Bool where
  expected := "a boolean"
  ofScalar
    | .bool b => .ok b
    | v => .error (.wrongType (.ofScalar v) "a boolean")

/-- A whole number of 64 bits without a sign. -/
def word : Shape UInt64 where
  expected := "u64"
  ofScalar
    | .int n => if 0 ≤ n then .ok n.toNat.toUInt64 else .error (.wrongInteger n "u64")
    | v => .error (.wrongType (.ofScalar v) "u64")

/-- A list of values of one shape. -/
def listOf (item : Shape α) : Shape (List α) where
  expected := "a sequence"
  list? := some (listBody true item.read)

/-- An object as a map. A repeated name keeps its first place and gets its last value. -/
def mapOf (item : Reader α) : Shape (OrderedMap α) where
  expected := "a map"
  object? := some fun s =>
    enclosed closeObject <|
      membersFrom ∅ (fun m name => .ok fun s => do
        let (a, s) ← item s
        return (m.insert name a, s)) s

/-- An object, or a list of its fields in order. -/
def fields (expected : String) (ofList ofObject : Reader α) : Shape α where
  expected := expected
  list? := some fun s => enclosed closeList (ofList s)
  object? := some fun s => enclosed closeObject (ofObject s)

end Shape

/-! ### Fields of objects -/

/-- A field that is to be there at most once. -/
def uniqueField (name : String) (isThere : Bool) (item : Reader α) (put : α → σ) :
    Except Cause (Reader σ) :=
  if isThere then .error (.repeatedField name)
  else .ok fun s => do
    let (a, s) ← item s
    return (put a, s)

/-- A field that is not needed. -/
def passedField (state : σ) : Except Cause (Reader σ) :=
  .ok fun s => do
    let (_, s) ← pass s
    return (state, s)

end StyleModule.Json
