import StyleModule.Template.Basic

/-!
# Names and paths in tags

`identifier` reads the name of a helper and `path` the way to a value. Both take as much as they can
and leave the rest; nothing in a path may be blank but what stands in square brackets.
-/

namespace StyleModule.Template

/-- A way to read something from the front of a text: what was read and what is left. -/
abbrev Scanner (α : Type) := List Char → Option (α × List Char)

/-- The characters that a way to read has taken from a text. -/
def taken (s rest : List Char) : List Char := s.take (s.length - rest.length)

/-- The characters of names. -/
def isNameChar (c : Char) : Bool :=
  c.isAlphanum || c == '-' || c == '_' || c == '$' || 0x80 ≤ c.toNat

/-- Whether a text goes on with a character of a name. -/
def startsName (s : List Char) : Bool := (s.head?.map isNameChar).getD false

/-- A name. -/
def identifier : Scanner String := fun s =>
  if startsName s then some (String.ofList (s.takeWhile isNameChar), s.dropWhile isNameChar)
  else none

/-! ### Parts -/

/-- The characters between the parts of a path. -/
def isSeparator (c : Char) : Bool := c == '.' || c == '/'

/-- One part of a path: a name, or anything in square brackets. -/
def pathPart : Scanner String
  | '[' :: r =>
    match r.dropWhile (· != ']') with
    | [] => none
    | _ :: rest => some (String.ofList (r.takeWhile (· != ']')), rest)
  | s => identifier s

/-- The further parts of a path, at most as many as the bound. A separator is left if no part
follows it. -/
def pathRest : Nat → List Char → List String × List Char
  | bound + 1, c :: r =>
    match if isSeparator c then pathPart r else none with
    | none => ([], c :: r)
    | some (part, s) =>
      let (parts, s) := pathRest bound s
      (part :: parts, s)
  | _, s => ([], s)

/-! ### Starts -/

/-- Past the words for the value that a path starts from, where the path goes on after them. -/
def dropThis : List Char → List Char
  | '.' :: '/' :: r => r
  | 't' :: 'h' :: 'i' :: 's' :: c :: r =>
    if isSeparator c then r else 't' :: 'h' :: 'i' :: 's' :: c :: r
  | s => s

/-- Past the word for the data, if the path goes on after it, and whether it is there. -/
def dropTop : List Char → Bool × List Char
  | '@' :: 'r' :: 'o' :: 'o' :: 't' :: c :: r =>
    if isSeparator c then (true, r) else (false, '@' :: 'r' :: 'o' :: 'o' :: 't' :: c :: r)
  | s => (false, s)

/-- Past the mark for what a block says of its turn, and whether it is there. -/
def dropTurn : List Char → Bool × List Char
  | '@' :: r => (true, r)
  | s => (false, s)

/-- Past the steps out of blocks, and how many there are. -/
def dropLevels : List Char → Nat × List Char
  | '.' :: '.' :: c :: r =>
    if isSeparator c then
      let (levels, s) := dropLevels r
      (levels + 1, s)
    else (0, '.' :: '.' :: c :: r)
  | s => (0, s)

/-! ### Paths -/

/-- A path. The word `this` names the value that has been reached, and is no step. -/
def path : Scanner Path := fun s => do
  let (isTop, s) := dropTop (dropThis s)
  let (isTurn, s) := dropTurn s
  let (levels, s) := dropLevels s
  let (part, s) ← pathPart s
  let (parts, s) := pathRest s.length s
  let parts := (part :: parts).filter (· != "this")
  let found : Path :=
    if isTop then .top parts
    else if isTurn then
      match parts with
      | [] => .here 0 []
      | name :: _ => .turn levels name
    else .here levels parts
  return (found, s)

/-- A path as an argument. -/
def reference : Scanner Argument := fun s => do
  let (p, r) ← path s
  return (.path (String.ofList (taken s r)) p, r)

end StyleModule.Template
