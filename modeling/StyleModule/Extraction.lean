import StyleModule.OrderedMap
import StyleModule.PropertyValue

/-!
# Values extracted from markup

An `Extraction` holds what was found out about the class selectors of some markup: the style
declarations of each, the conditions under which it applies, a mask of runtime conditions and the
runtime topics it subscribes to. The four maps list the selectors in the order in which they came
in, so that what is generated from an extraction is the same on every run.
-/

namespace StyleModule

/-- The declarations of one selector, by property. -/
abbrev StyleRecord := OrderedMap PropertyValue

/-- One condition, for instance `media` with `(min-width: 640px)`. -/
structure Condition where
  /-- The kind of condition. -/
  kind : String
  /-- What is asked for. -/
  argument : String
deriving DecidableEq

/-- Everything that was extracted, by selector. -/
structure Extraction where
  /-- The style declarations. -/
  styles : OrderedMap StyleRecord := ∅
  /-- The groups of conditions. -/
  atRules : OrderedMap (List (List Condition)) := ∅
  /-- The bit masks of runtime conditions. -/
  masks : OrderedMap UInt64 := ∅
  /-- The topics subscribed to. -/
  topics : OrderedMap (List String) := ∅
deriving Inhabited

/-- A condition as a list of its two parts. -/
def Condition.toJson (c : Condition) : Json := .array [.string c.kind, .string c.argument]

/-- The object whose members are the entries of a map. -/
def OrderedMap.toJson {α : Type} (f : α → Json) (m : OrderedMap α) : Json :=
  .object (m.entries.map fun (key, v) => (key, f v))

namespace Extraction

/-- The extraction of nothing. -/
def empty : Extraction := {}

variable (e : Extraction)

/-- Whether nothing was extracted. -/
def isEmpty : Bool :=
  e.styles.isEmpty && e.atRules.isEmpty && e.masks.isEmpty && e.topics.isEmpty

/-! ### Building an extraction -/

/-- Give a selector its declarations, in place of any it had. -/
def withRecord (selector : String) (record : StyleRecord) : Extraction :=
  { e with styles := e.styles.insert selector record }

/-- Give a selector one more group of conditions. -/
def withConditions (selector : String) (group : List Condition) : Extraction :=
  { e with atRules := e.atRules.upsert selector fun groups => groups.getD [] ++ [group] }

/-- Give a selector its mask, in place of the one it had. -/
def withMask (selector : String) (mask : UInt64) : Extraction :=
  { e with masks := e.masks.insert selector mask }

/-- The topics with one more, unless it is among them. -/
def addUnlessThere (topics : List String) (topic : String) : List String :=
  if topic ∈ topics then topics else topics ++ [topic]

/-- Subscribe a selector to a topic. -/
def subscribe (selector topic : String) : Extraction :=
  { e with
    topics := e.topics.upsert selector fun topics => addUnlessThere (topics.getD []) topic }

/-! ### Equality -/

/-- Equality without regard to the order of selectors and properties. -/
def beq (a b : Extraction) : Bool :=
  a.styles == b.styles && a.atRules == b.atRules && a.masks == b.masks && a.topics == b.topics

instance : BEq Extraction := ⟨beq⟩

/-! ### JSON -/

/-- The declarations as JSON. -/
def stylesJson : Json := e.styles.toJson (OrderedMap.toJson PropertyValue.toJson)

/-- The groups of conditions as JSON. -/
def atRulesJson : Json :=
  e.atRules.toJson fun groups =>
    .array (groups.map fun group => .array (group.map Condition.toJson))

/-- The masks as JSON. -/
def masksJson : Json := e.masks.toJson fun mask => .int mask.toNat

/-- The topics as JSON. -/
def topicsJson : Json := e.topics.toJson fun topics => .array (topics.map .string)

/-- All four maps, also the empty ones. -/
def toJson : Json :=
  .object [("styles", e.stylesJson), ("atRules", e.atRulesJson), ("masks", e.masksJson),
    ("topics", e.topicsJson)]

end Extraction

end StyleModule
