import StyleModule.Exports
import StyleModule.Json.Numeral
import StyleModule.Json.Quotation
import StyleModule.Proofs.Text.Identifier

/-!
# Reading expressions

A reader of the expressions that are written for exports, made for their grammar alone: object
literals with bare or quoted names, lists, quoted strings, whole numbers, keywords and the members
of the `StyleSheet` (`Expression.readValue`). `Exports.extraction?` reads each of the four exports
as a whole.

A `Scanner` reads what it looks for at the front of a text and gives back the rest.
-/

namespace StyleModule.Expression

open Text

variable {α : Type}

/-- What is at the front of a text, and what follows it. -/
abbrev Scanner (α : Type) := List Char → Option (α × List Char)

/-! ### Words -/

/-- A given word. -/
def readWord : List Char → Scanner Unit
  | [], s => some ((), s)
  | _ :: _, [] => none
  | c :: cs, d :: s => if c = d then readWord cs s else none

/-- One of the keywords, as the value it stands for. -/
def readKeyword : Scanner Json := fun s =>
  [("null", Json.null), ("true", .bool true), ("false", .bool false)].findSome? fun (keyword, v) =>
    (readWord keyword.toList s).map fun p => (v, p.2)

/-- A string between double quotes. -/
def readString : Scanner String
  | '"' :: s => (Json.quotation s).toOption
  | _ => none

/-- The longest name: a character that starts one and all that continue it. -/
def readName : Scanner String
  | c :: s =>
    if StartsName c then
      some (String.ofList (c :: s.takeWhile fun d => ContinuesName d),
        s.dropWhile fun d => ContinuesName d)
    else none
  | [] => none

/-- A name before its colon: a quoted string or a bare name. -/
def readKey : Scanner String := fun s => do
  let (name, s) ← (readString s).or (readName s)
  let (_, s) ← readWord [':'] s
  return (name, s)

/-! ### Numbers -/

/-- Decimal digits, of which there is at least one. -/
def readNat : Scanner Nat := fun s =>
  match Json.Numeral.spanDigits s with
  | ([], _) => none
  | (ds, s) => some (Nat.ofDigitChars 10 ds 0, s)

/-- A whole number of any size. -/
def readInt : Scanner Int
  | '-' :: s => (readNat s).map fun p => (-p.1, p.2)
  | s => (readNat s).map fun p => (p.1, p.2)

/-! ### Containers -/

/-- Items with commas between them, at most as many as the bound, and a closing bracket. -/
def readItems (item : Scanner α) (close : Char) : Nat → Scanner (List α)
  | 0, _ => none
  | bound + 1, s => do
    let (a, s) ← item s
    match s with
    | [] => none
    | c :: s =>
      if c = close then some ([a], s)
      else if c = ',' then (readItems item close bound s).map fun p => (a :: p.1, p.2)
      else none

/-- Any number of items between brackets. -/
def readBracketed (openBracket close : Char) (item : Scanner α) : Scanner (List α) := fun s => do
  let (_, s) ← readWord [openBracket] s
  match s with
  | [] => none
  | c :: r => if c = close then some ([], r) else readItems item close (c :: r).length (c :: r)

/-- A list. -/
def readList (item : Scanner α) : Scanner (List α) := readBracketed '[' ']' item

/-- A member of an object: its name, a colon and its value. -/
def readMember (item : Scanner α) : Scanner (String × α) := fun s => do
  let (name, s) ← readKey s
  let (a, s) ← item s
  return ((name, a), s)

/-- An object. -/
def readObject (item : Scanner α) : Scanner (List (String × α)) :=
  readBracketed '\x7b' '\x7d' (readMember item)

/-- An object as a map. -/
def readMap (item : Scanner α) : Scanner (OrderedMap α) := fun s =>
  (readObject item s).map fun p => (.ofList p.1, p.2)

/-! ### Values -/

/-- A JSON value without floating point numbers, with at most the given number of containers open in
it. -/
def readJson : Nat → Scanner Json
  | _, [] => none
  | bound, c :: s =>
    if c = '"' then (readString (c :: s)).map fun p => (.string p.1, p.2)
    else if c = '-' ∨ c.isDigit then (readInt (c :: s)).map fun p => (.int p.1, p.2)
    else if c = '[' then
      match bound with
      | 0 => none
      | n + 1 => (readList (readJson n) (c :: s)).map fun p => (.array p.1, p.2)
    else if c = '\x7b' then
      match bound with
      | 0 => none
      | n + 1 => (readObject (readJson n) (c :: s)).map fun p => (.object p.1, p.2)
    else readKeyword (c :: s)

/-- The value of a property: a member of the `StyleSheet`, or else a literal. -/
def readValue : Scanner PropertyValue := fun s =>
  match readWord "StyleSheet.".toList s with
  | some (_, s) => (readName s).map fun p => (.member p.1, p.2)
  | none => (readJson s.length s).map fun p => (.literal (.ofJson p.1), p.2)

/-- The declarations. -/
def readStyles : Scanner (OrderedMap StyleRecord) := readMap (readMap readValue)

/-- A condition as a list of two strings. -/
def readCondition : Scanner Condition := fun s =>
  match readList readString s with
  | some ([kind, argument], s) => some (⟨kind, argument⟩, s)
  | _ => none

/-- The groups of conditions. -/
def readAtRules : Scanner (OrderedMap (List (List Condition))) :=
  readMap (readList (readList readCondition))

/-- The masks. -/
def readMasks : Scanner (OrderedMap UInt64) :=
  readMap fun s => (readNat s).map fun p => (p.1.toUInt64, p.2)

/-- The topics. -/
def readTopics : Scanner (OrderedMap (List String)) := readMap (readList readString)

/-- What stands in parentheses after `StyleSheet.create`. -/
def readCreated (item : Scanner α) : Scanner α := fun s => do
  let (_, s) ← readWord "StyleSheet.create(".toList s
  let (a, s) ← item s
  let (_, s) ← readWord [')'] s
  return (a, s)

/-- A whole text. -/
def readWhole (scanner : Scanner α) (text : String) : Option α :=
  match scanner text.toList with
  | some (a, []) => some a
  | _ => none

end StyleModule.Expression

namespace StyleModule.Exports

open Expression

/-- The extraction that exports were written for. -/
def extraction? (options : ExportOptions) (x : Exports) : Option Extraction := do
  let styles ← readWhole (if options.stylesheetCreate then readCreated readStyles else readStyles)
    x.styles
  let atRules ← readWhole readAtRules x.atRules
  let masks ← readWhole readMasks x.masks
  let topics ← readWhole readTopics x.topics
  return { styles, atRules, masks, topics }

end StyleModule.Exports
