import StyleModule.Extraction
import StyleModule.Expression
import StyleModule.Options
import StyleModule.Problem

/-!
# Exports

The four expressions that a module exports, one for each map of an extraction
(`Extraction.exports`). A map becomes an object literal with its entries in order; the styles may
be handed to `StyleSheet.create`. The only values that cannot be written are members of the
`StyleSheet` whose name is not an identifier, and the first of these is the problem that is
reported.
-/

namespace StyleModule

/-- The expressions that a module exports. -/
structure Exports where
  /-- The style declarations. -/
  styles : String := "\x7b\x7d"
  /-- The groups of conditions. -/
  atRules : String := "\x7b\x7d"
  /-- The masks. -/
  masks : String := "\x7b\x7d"
  /-- The topics. -/
  topics : String := "\x7b\x7d"
deriving DecidableEq, Inhabited

namespace Exports

variable (x : Exports)

/-- The number of bytes of all expressions together. -/
def byteLength : Nat :=
  x.styles.utf8ByteSize + x.atRules.utf8ByteSize + x.masks.utf8ByteSize + x.topics.utf8ByteSize

/-- The members that stand for the exports in JSON, under the names they are exported by. -/
def jsonMembers : List (String × Json) :=
  [("styles", .string x.styles), ("atRules", .string x.atRules), ("masks", .string x.masks),
    ("topics", .string x.topics)]

/-- The exports as JSON. -/
def toJson : Json := .object x.jsonMembers

end Exports

namespace Extraction

open Expression

/-! ### Style declarations -/

/-- The expression for the value of a property. -/
def valueText (selector property : String) : PropertyValue → Except Problem (List Char)
  | .literal l => .ok (ofJson l.json)
  | .member name =>
    if Text.isIdentifier name then .ok ("StyleSheet.".toList ++ name.toList)
    else .error (.notMember selector property name)

/-- The expression for the declarations of a selector. -/
def recordText (selector : String) (record : StyleRecord) : Except Problem (List Char) := do
  let members ← record.entries.mapM fun (property, v) => do
    return (property, ← valueText selector property v)
  return objectText members

variable (e : Extraction)

/-- The object literal of all declarations. -/
def stylesText : Except Problem (List Char) := do
  let members ← e.styles.entries.mapM fun (selector, record) => do
    return (selector, ← recordText selector record)
  return objectText members

/-! ### The other maps -/

/-- The expression for a condition. -/
def conditionText (c : Condition) : List Char :=
  arrayText [Text.Quoted.double c.kind, Text.Quoted.double c.argument]

/-- The object literal of a map whose values have the given expressions. -/
def mapText {α : Type} (f : α → List Char) (m : OrderedMap α) : List Char :=
  objectText (m.entries.map fun (selector, v) => (selector, f v))

/-- The object literal of all conditions. -/
def atRulesText : List Char :=
  mapText (fun groups => arrayText (groups.map fun group => arrayText (group.map conditionText)))
    e.atRules

/-- The object literal of all masks. -/
def masksText : List Char := mapText (fun mask => Nat.toDigits 10 mask.toNat) e.masks

/-- The object literal of all topics. -/
def topicsText : List Char :=
  mapText (fun topics => arrayText (topics.map Text.Quoted.double)) e.topics

/-! ### All expressions -/

/-- The expression for the styles: the object literal, handed to `StyleSheet.create` if this is
chosen. -/
def stylesExport (options : ExportOptions) (styles : List Char) : List Char :=
  if options.stylesheetCreate then "StyleSheet.create(".toList ++ styles ++ [')'] else styles

/-- The exports of an extraction. -/
def exports (options : ExportOptions) : Except Problem Exports := do
  let styles ← e.stylesText
  return {
    styles := String.ofList (stylesExport options styles)
    atRules := String.ofList e.atRulesText
    masks := String.ofList e.masksText
    topics := String.ofList e.topicsText }

end Extraction

end StyleModule
