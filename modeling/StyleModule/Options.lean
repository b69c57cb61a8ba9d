import StyleModule.Json.Basic

/-!
# Options

What may be chosen about a generated module.
-/

namespace StyleModule

/-- What the first lines of a module name. -/
structure HeaderOptions where
  /-- The tool that is named as the origin of the module. -/
  toolName : String := "tailwindcss-react-native"
  /-- The framework that the module takes its `StyleSheet` from. -/
  uiFramework : String := "react-native"
deriving DecidableEq, Inhabited

/-- How the exports of a module are written. -/
structure ExportOptions where
  /-- Whether the styles are handed to `StyleSheet.create`. -/
  stylesheetCreate : Bool := true
deriving DecidableEq, Inhabited

/-- All options. -/
structure Options where
  /-- What the first lines name. -/
  header : HeaderOptions := {}
  /-- How the exports are written. -/
  exports : ExportOptions := {}
deriving DecidableEq, Inhabited

/-- The members that stand for the options of the header in JSON. -/
def HeaderOptions.jsonMembers (o : HeaderOptions) : List (String × Json) :=
  [("toolName", .string o.toolName), ("uiFramework", .string o.uiFramework)]

/-- The members that stand for the options of the exports in JSON. -/
def ExportOptions.jsonMembers (o : ExportOptions) : List (String × Json) :=
  [("stylesheetCreate", .bool o.stylesheetCreate)]

/-- The members that stand for all options in JSON. -/
def Options.jsonMembers (o : Options) : List (String × Json) :=
  o.header.jsonMembers ++ o.exports.jsonMembers

end StyleModule
