import StyleModule.Extraction
import StyleModule.PropertyValue.Reader

/-!
# Reading extractions

`Extraction.read` reads the JSON text of an extraction. It is an object in which every map may be
missing but none may be repeated, or a list of the maps in order, of which the last ones may be
missing. Members with other names are passed over.
-/

namespace StyleModule

open Json

namespace Condition

/-- The failure for a list that ends after `n` strings. -/
def tooFew (n : Nat) (s : List Char) : Json.Failure :=
  .pending (.wrongLength n "tuple struct AtRule with 2 elements") s

/-- The two strings of a condition. -/
def shape : Shape Condition where
  expected := "tuple struct AtRule"
  list? := some fun s => enclosed closeList do
    let (kind, s) ← item? true Shape.string.read s
    let some kind := kind | throw (tooFew 0 s)
    let (argument, s) ← item? false Shape.string.read s
    let some argument := argument | throw (tooFew 1 s)
    return (⟨kind, argument⟩, s)

/-- Read the JSON text of a condition. -/
def read (text : String) : Except Json.Error Condition := shape.read.run text

end Condition

namespace Extraction

/-- The map of declarations. Three containers are open around each value. -/
def stylesShape : Shape (OrderedMap StyleRecord) :=
  .mapOf (Shape.mapOf (PropertyValue.reader (maxOpen - 3))).read

/-- The map of conditions. -/
def atRulesShape : Shape (OrderedMap (List (List Condition))) :=
  .mapOf (Shape.listOf (Shape.listOf Condition.shape)).read

/-- The map of masks. -/
def masksShape : Shape (OrderedMap UInt64) := .mapOf Shape.word.read

/-- The map of topics. -/
def topicsShape : Shape (OrderedMap (List String)) := .mapOf (Shape.listOf Shape.string).read

/-- The maps found so far. -/
structure Parts where
  /-- The declarations. -/
  styles : Option (OrderedMap StyleRecord) := none
  /-- The conditions. -/
  atRules : Option (OrderedMap (List (List Condition))) := none
  /-- The masks. -/
  masks : Option (OrderedMap UInt64) := none
  /-- The topics. -/
  topics : Option (OrderedMap (List String)) := none

/-- Missing maps are empty. -/
def ofParts (p : Parts) : Extraction where
  styles := p.styles.getD ∅
  atRules := p.atRules.getD ∅
  masks := p.masks.getD ∅
  topics := p.topics.getD ∅

/-- How the member of a name is read. -/
def field (p : Parts) (name : String) : Except Cause (Reader Parts) :=
  if name = "styles" then
    uniqueField name p.styles.isSome stylesShape.read fun m => { p with styles := some m }
  else if name = "atRules" then
    uniqueField name p.atRules.isSome atRulesShape.read fun m => { p with atRules := some m }
  else if name = "masks" then
    uniqueField name p.masks.isSome masksShape.read fun m => { p with masks := some m }
  else if name = "topics" then
    uniqueField name p.topics.isSome topicsShape.read fun m => { p with topics := some m }
  else passedField p

/-- An extraction. -/
def shape : Shape Extraction :=
  .fields "struct ExtractedValues"
    (fun s => do
      let (styles, s) ← item? true stylesShape.read s
      let (atRules, s) ← item? false atRulesShape.read s
      let (masks, s) ← item? false masksShape.read s
      let (topics, s) ← item? false topicsShape.read s
      return (ofParts ⟨styles, atRules, masks, topics⟩, s))
    (fun s => do
      let (p, s) ← membersFrom {} field s
      return (ofParts p, s))

/-- Read the JSON text of an extraction. -/
def read (text : String) : Except Json.Error Extraction := shape.read.run text

end Extraction

end StyleModule
