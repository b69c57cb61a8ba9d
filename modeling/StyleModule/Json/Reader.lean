import StyleModule.Json.Container

/-!
# Reading JSON texts

* `value` reads any value.
* `pass` passes over a value that is not needed.
* `Reader.run` reads a whole text.

Of the containers that are open at one place there may be at most `maxOpen`. A value that is passed
over may be nested to any depth.
-/

namespace StyleModule.Json

variable {α : Type}

/-- How many containers may be open at one place. -/
def maxOpen : Nat := 127

/-- Any value, with at most the given number of containers open in it. -/
def value : Nat → Reader Json
  | isOpenable, s =>
    match dropBlanks s with
    | [] => scalar []
    | c :: r =>
      if c = '[' then
        match isOpenable with
        | 0 => .error (.placed .tooDeep (c :: r) 1)
        | n + 1 => do
          let (vs, r) ← listBody true (value n) r
          return (array vs, r)
      else if c = '\x7b' then
        match isOpenable with
        | 0 => .error (.placed .tooDeep (c :: r) 1)
        | n + 1 => do
          let (ms, r) ← enclosed closeObject (objectBody (value n) r)
          return (object ms, r)
      else scalar (c :: r)

/-- What follows a value, in which fewer containers than the bound are open at one place. -/
def passNested : Nat → Reader Unit
  | bound, s =>
    match dropBlanks s with
    | [] => passScalar []
    | c :: r =>
      if c = '[' then
        match bound with
        | 0 => .error (.placed .tooDeep (c :: r) 1)
        | n + 1 => do
          let (_, r) ← listBody false (passNested n) r
          return ((), r)
      else if c = '\x7b' then
        match bound with
        | 0 => .error (.placed .tooDeep (c :: r) 1)
        | n + 1 =>
          enclosed closeObject
            (members false passQuotation (fun _ _ => .ok (passNested n)) (r.length + 1) true () r)
      else passScalar (c :: r)

/-- What follows a value. -/
def pass : Reader Unit := fun s => passNested s.length s

/-- Read a whole text. -/
def Reader.run (reader : Reader α) (text : String) : Except Error α :=
  match reader text.toList with
  | .error f => .error (f.locate text)
  | .ok (a, s) =>
    match dropBlanks s with
    | [] => .ok a
    | r => .error (Failure.locate text (.placed .trailingCharacters r 1))

end StyleModule.Json
