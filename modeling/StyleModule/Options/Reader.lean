import StyleModule.Json.Shape
import StyleModule.Options

/-!
# Reading options

Every option may be missing, and then has its default. The options for one part of a module alone
are an object or a list of the options in order (`HeaderOptions.read`, `ExportOptions.read`). All
options together are an object (`Options.read`), which is first read as a whole; only then are the
options in it looked at, those for the header before those for the exports.
-/

namespace StyleModule

open Json

/-! ### The header -/

namespace HeaderOptions

/-- The options found so far. -/
structure Parts where
  /-- The tool. -/
  toolName : Option String := none
  /-- The framework. -/
  uiFramework : Option String := none

/-- Missing options have their defaults. -/
def ofParts (p : Parts) : HeaderOptions where
  toolName := p.toolName.getD ({} : HeaderOptions).toolName
  uiFramework := p.uiFramework.getD ({} : HeaderOptions).uiFramework

/-- How the member of a name is read. -/
def field (p : Parts) (name : String) : Except Cause (Reader Parts) :=
  if name = "toolName" then
    uniqueField name p.toolName.isSome Shape.string.read fun s => { p with toolName := some s }
  else if name = "uiFramework" then
    uniqueField name p.uiFramework.isSome Shape.string.read fun s =>
      { p with uiFramework := some s }
  else passedField p

/-- The options for the header alone. -/
def shape : Shape HeaderOptions :=
  .fields "struct FormatterConfig"
    (fun s => do
      let (toolName, s) ← item? true Shape.string.read s
      let (uiFramework, s) ← item? false Shape.string.read s
      return (ofParts ⟨toolName, uiFramework⟩, s))
    (fun s => do
      let (p, s) ← membersFrom {} field s
      return (ofParts p, s))

/-- Read the JSON text of the options for the header. -/
def read (text : String) : Except Json.Error HeaderOptions := shape.read.run text

/-- The options for the header among the members of an object, after those found before. -/
def ofMembers : Parts → List (String × Json) → Except Cause HeaderOptions
  | p, [] => .ok (ofParts p)
  | p, (name, v) :: ms =>
    if name = "toolName" then
      if p.toolName.isSome then .error (.repeatedField name)
      else do ofMembers { p with toolName := some (← Shape.string.ofScalar v) } ms
    else if name = "uiFramework" then
      if p.uiFramework.isSome then .error (.repeatedField name)
      else do ofMembers { p with uiFramework := some (← Shape.string.ofScalar v) } ms
    else ofMembers p ms

end HeaderOptions

/-! ### The exports -/

namespace ExportOptions

/-- A missing option has its default. -/
def ofPart (stylesheetCreate : Option Bool) : ExportOptions where
  stylesheetCreate := stylesheetCreate.getD ({} : ExportOptions).stylesheetCreate

/-- How the member of a name is read. -/
def field (found : Option Bool) (name : String) : Except Cause (Reader (Option Bool)) :=
  if name = "stylesheetCreate" then uniqueField name found.isSome Shape.bool.read some
  else passedField found

/-- The options for the exports alone. -/
def shape : Shape ExportOptions :=
  .fields "struct SerializerConfig"
    (fun s => do
      let (create, s) ← item? true Shape.bool.read s
      return (ofPart create, s))
    (fun s => do
      let (create, s) ← membersFrom none field s
      return (ofPart create, s))

/-- Read the JSON text of the options for the exports. -/
def read (text : String) : Except Json.Error ExportOptions := shape.read.run text

/-- The options for the exports among the members of an object, after the one found before. -/
def ofMembers : Option Bool → List (String × Json) → Except Cause ExportOptions
  | found, [] => .ok (ofPart found)
  | found, (name, v) :: ms =>
    if name = "stylesheetCreate" then
      if found.isSome then .error (.repeatedField name)
      else do ofMembers (some (← Shape.bool.ofScalar v)) ms
    else ofMembers found ms

end ExportOptions

/-! ### All options -/

namespace Options

/-- The options among the members of an object. -/
def ofMembers (ms : List (String × Json)) : Except Cause Options := do
  let header ← HeaderOptions.ofMembers {} ms
  let exports ← ExportOptions.ofMembers none ms
  return ⟨header, exports⟩

/-- All options. One container is open around the value of each. -/
def shape : Shape Options where
  expected := "struct Config"
  object? := some fun s => enclosed closeObject do
    let (ms, s) ← objectBody (value (maxOpen - 1)) s
    match ofMembers ms with
    | .ok options => return (options, s)
    | .error cause => throw (.pending cause s)

/-- Read the JSON text of all options. -/
def read (text : String) : Except Json.Error Options := shape.read.run text

end Options

end StyleModule
