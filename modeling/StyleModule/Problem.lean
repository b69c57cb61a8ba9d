import StyleModule.Json.Error
import StyleModule.Template.Context

/-!
# Why no module can be generated
-/

namespace StyleModule

/-- Why no module can be generated. -/
inductive Problem where
  /-- A value cannot be expressed in a module. -/
  | invalidValue (selector property detail : String)
  /-- Whoever writes the exports reports a failure of its own. -/
  | exporter (text : String)
  /-- A template cannot be read. -/
  | invalidTemplate
  /-- A template cannot be rendered. -/
  | template (error : Template.RenderError)
  /-- A JSON text cannot be read. -/
  | json (error : Json.Error)

/-- The words for a failure to render. -/
def Template.RenderError.message : RenderError → String
  | unknownTemplate name => "Template not found " ++ name
  | unreadable => "Invalid template"
  | invalidIndex part => "Invalid index " ++ part
  | unknownHelper helper => "Helper not defined " ++ helper
  | missingArgument helper => "Missing argument of " ++ helper
  | invalidArgument helper => "Invalid argument of " ++ helper
  | foreign name => "Neither a value nor a helper " ++ name

namespace Problem

/-- The words for a problem. -/
def message : Problem → String
  | invalidValue selector property detail =>
    "Invalid value for '" ++ property ++ "' on '" ++ selector ++ "': " ++ detail
  | exporter text => "Serializer error: " ++ text
  | invalidTemplate => "Invalid template"
  | template error => "Template error: " ++ error.message
  | json error => "JSON error: " ++ error.message

/-- A property names a member that the `StyleSheet` cannot have. -/
def notMember (selector property member : String) : Problem :=
  invalidValue selector property ("'" ++ member ++ "' is not a StyleSheet member")

/-- The tool's name does not stay in the comment that names it. -/
def brokenHeader : Problem :=
  invalidValue "header" "toolName" "line breaks would end the header comment"

/-- A platform cannot be a part of a file name. -/
def unfitPlatform (platform : String) : Problem :=
  invalidValue platform "platform" "not usable as part of a file name"

end Problem

end StyleModule
