import StyleModule.Json.Shape
import StyleModule.PropertyValue

/-!
# Reading values of style properties

Any JSON value is read in full before its form is looked at (`PropertyValue.reader`). The name of
a member can also be read by itself, where no other value is admitted
(`PropertyValue.readMemberName`).
-/

namespace StyleModule.PropertyValue

open Json

/-- A value with at most the given number of containers open in it. -/
def reader (isOpenable : Nat) : Reader PropertyValue := fun s => do
  let (v, s) ← value isOpenable s
  return (.ofJson v, s)

/-- Read the JSON text of a value. -/
def read (text : String) : Except Json.Error PropertyValue := Reader.run (reader maxOpen) text

/-- Read the JSON text of a literal, whatever its form. -/
def readLiteral (text : String) : Except Json.Error PropertyValue :=
  (Reader.run (Json.value maxOpen) text).map fun v => .literal (.ofJson v)

/-- How the fields of a named member are read: there is one, and no other is admitted. -/
def memberNameField (found : Option String) (name : String) :
    Except Cause (Reader (Option String)) :=
  if name = memberField then uniqueField name found.isSome Shape.string.read some
  else .error (.unknownField name memberField)

/-- The name of a member, as an object or as a list. -/
def memberNameShape : Shape String :=
  .fields "struct StyleSheetRef"
    (fun s => do
      let (name, s) ← item? true Shape.string.read s
      match name with
      | some name => return (name, s)
      | none => throw (.pending (.wrongLength 0 "struct StyleSheetRef with 1 element") s))
    (fun s => do
      let (name, s) ← membersFrom none memberNameField s
      match name with
      | some name => return (name, s)
      | none => throw (.pending (.missingField memberField) s))

/-- Read the JSON text of the name of a member. -/
def readMemberName (text : String) : Except Json.Error String := memberNameShape.read.run text

end StyleModule.PropertyValue
