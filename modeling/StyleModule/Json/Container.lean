import StyleModule.Json.Scalar

/-!
# Lists and objects

The items of a list and the members of an object are read one after the other, each by a reader that
the caller chooses. What is between them is the same for all callers, but for one point: whoever
keeps the values reports a comma before the closing bracket as such (`reportsComma`), and whoever
passes over them reports that a value or a name is missing.

A body is read up to its closing bracket, and `enclosed` closes it.
-/

namespace StyleModule.Json

variable {α κ σ : Type}

/-! ### Closing brackets -/

/-- Past the end of a list. -/
def closeList (s : List Char) : Except Failure (List Char) :=
  match dropBlanks s with
  | [] => .error (.placed .endInList [] 1)
  | c :: r =>
    if c = ']' then .ok r
    else if c = ',' then
      let r := dropBlanks r
      .error (.placed (if r.head? = some ']' then .trailingComma else .trailingCharacters) r 1)
    else .error (.placed .trailingCharacters (c :: r) 1)

/-- Past the end of an object. -/
def closeObject (s : List Char) : Except Failure (List Char) :=
  match dropBlanks s with
  | [] => .error (.placed .endInObject [] 1)
  | c :: r =>
    if c = '\x7d' then .ok r
    else .error (.placed (if c = ',' then .trailingComma else .trailingCharacters) (c :: r) 1)

/-- Where an attempt to close a container stopped. -/
def reached : Except Failure (List Char) → List Char
  | .ok r => r
  | .error f => f.rest

/-- Close a container after its body. A failure of the body comes before one of closing; if its
place is not known, it is where the attempt to close stopped. -/
def enclosed (close : List Char → Except Failure (List Char)) :
    Except Failure (α × List Char) → Except Failure (α × List Char)
  | .ok (a, r) => (close r).map fun r => (a, r)
  | .error (.placed cause rest ahead) => .error (.placed cause rest ahead)
  | .error (.pending cause rest) => .error (.placed cause (reached (close rest)) 0)

/-! ### Items -/

/-- Go to the next item of a list, or to the closing bracket. -/
def nextItem (reportsComma isFirst : Bool) (s : List Char) : Except Failure (Bool × List Char) :=
  match dropBlanks s with
  | [] => .error (.placed .endInList [] 1)
  | c :: r =>
    if c = ']' then .ok (false, c :: r)
    else if isFirst then .ok (true, c :: r)
    else if c = ',' then
      let r := dropBlanks r
      if reportsComma ∧ r.head? = some ']' then .error (.placed .trailingComma r 1)
      else .ok (true, r)
    else .error (.placed .expectedCommaOrBracket (c :: r) 1)

/-- The next item of a list, if there is one. -/
def item? (isFirst : Bool) (item : Reader α) : Reader (Option α) := fun s => do
  let (isThere, s) ← nextItem true isFirst s
  if isThere then
    let (a, s) ← item s
    return (some a, s)
  else return (none, s)

/-- All items up to the closing bracket, fewer than the bound. -/
def items (reportsComma : Bool) (item : Reader α) : Nat → Bool → Reader (List α)
  | 0, _, s => .error (.placed .endInList s 1)
  | bound + 1, isFirst, s => do
    let (isThere, s) ← nextItem reportsComma isFirst s
    if isThere then
      let (a, s) ← item s
      let (as, s) ← items reportsComma item bound false s
      return (a :: as, s)
    else return ([], s)

/-- A list of any length, read after its opening bracket. -/
def listBody (reportsComma : Bool) (item : Reader α) : Reader (List α) := fun s =>
  enclosed closeList (items reportsComma item (s.length + 1) true s)

/-! ### Members -/

/-- Go past the opening quote of the next name of an object, or to the closing brace. -/
def nextName (reportsComma isFirst : Bool) (s : List Char) : Except Failure (Bool × List Char) :=
  match dropBlanks s with
  | [] => .error (.placed .endInObject [] 1)
  | c :: r =>
    if c = '\x7d' then .ok (false, c :: r)
    else if isFirst then
      if c = '"' then .ok (true, r) else .error (.placed .nameNotString (c :: r) 1)
    else if c = ',' then
      match dropBlanks r with
      | [] => .error (.placed (if reportsComma then .endInValue else .endInObject) [] 1)
      | d :: r =>
        if d = '"' then .ok (true, r)
        else if reportsComma ∧ d = '\x7d' then .error (.placed .trailingComma (d :: r) 1)
        else .error (.placed .nameNotString (d :: r) 1)
    else .error (.placed .expectedCommaOrBrace (c :: r) 1)

/-- Past the colon after a name. -/
def colon (s : List Char) : Except Failure (List Char) :=
  match dropBlanks s with
  | [] => .error (.placed .endInObject [] 1)
  | c :: r => if c = ':' then .ok r else .error (.placed .expectedColon (c :: r) 1)

/-- All members up to the closing brace, fewer than the bound. After each name the caller either
refuses it or says how its value is read, and with each value the state goes on. -/
def members (reportsComma : Bool) (name : Reader κ) (member : σ → κ → Except Cause (Reader σ)) :
    Nat → Bool → σ → Reader σ
  | 0, _, _, s => .error (.placed .endInObject s 1)
  | bound + 1, isFirst, state, s => do
    let (isThere, s) ← nextName reportsComma isFirst s
    if isThere then
      let (k, s) ← name s
      match member state k with
      | .error cause => .error (.pending cause s)
      | .ok value =>
        let s ← colon s
        let (state, s) ← value s
        members reportsComma name member bound false state s
    else return (state, s)

/-- The members of an object from a first state on, read up to the closing brace. -/
def membersFrom (start : σ) (member : σ → String → Except Cause (Reader σ)) : Reader σ := fun s =>
  members true quotation member (s.length + 1) true start s

/-- Read the value of a name and put the member in front of those before it. -/
def keepMember (item : Reader α) (ms : List (String × α)) (name : String) :
    Except Cause (Reader (List (String × α))) :=
  .ok fun s => do
    let (a, s) ← item s
    return ((name, a) :: ms, s)

/-- The members of an object in order, read up to the closing brace. -/
def objectBody (item : Reader α) : Reader (List (String × α)) := fun s => do
  let (ms, s) ← membersFrom [] (keepMember item) s
  return (ms.reverse, s)

end StyleModule.Json
