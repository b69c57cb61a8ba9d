import StyleModule.Exports
import StyleModule.Extraction.Reader
import StyleModule.Log
import StyleModule.Platform
import StyleModule.Template.Registry

/-!
# Generating modules

A `Generator` turns an extraction into the text of a module, for one platform
(`Generator.moduleText`) or for each of a list (`Generator.modules`). It holds the options for the
header, whoever writes the exports, and the template of a module. The modules, the problem and the
log all follow the steps in which the platforms are worked off.
-/

namespace StyleModule

/-- A way to write the exports of an extraction. -/
abbrev Exporter := Extraction → Except Problem Exports

/-- Whoever turns extractions into modules. -/
structure Generator where
  /-- What the header names. -/
  header : HeaderOptions
  /-- Who writes the exports. -/
  exporter : Exporter
  /-- The templates in use. -/
  templates : Template.Registry .plain

namespace Generator

/-! ### The template -/

/-- The name of the template of a module. -/
def templateName : String := "module"

/-- The template of a module. Exports are put in as they are; the line for the platform is there if
there is one. -/
def templateText : String :=
  "// This file was generated by \x7b\x7btool\x7d\x7d. Do not edit!\n" ++
  "const \x7b StyleSheet \x7d = require(\x7b\x7bjs_string framework\x7d\x7d)\n" ++
  "module.exports = \x7b\n" ++
  "\x7b\x7b#if platform\x7d\x7d  platform: \x7b\x7bjs_quote platform\x7d\x7d,\n" ++
  "\x7b\x7b/if\x7d\x7d  styles: \x7b\x7bstyles\x7d\x7d,\n" ++
  "  atRules: \x7b\x7batRules\x7d\x7d,\n" ++
  "  masks: \x7b\x7bmasks\x7d\x7d,\n" ++
  "  topics: \x7b\x7btopics\x7d\x7d,\n" ++
  "\x7d\n"

/-- Whether a character ends a line of a script, and so a comment. -/
def endsLine (c : Char) : Bool := c == '\n' || c == '\r' || c == '\u2028' || c == '\u2029'

/-- A generator, unless the tool's name would not stay in its comment. -/
def make (header : HeaderOptions) (exporter : Exporter) : Except Problem Generator :=
  if header.toolName.toList.any endsLine then .error .brokenHeader
  else match (Template.Registry.empty .plain).register? templateName templateText with
    | none => .error .invalidTemplate
    | some templates => .ok ⟨header, exporter, templates⟩

/-- A generator that writes the exports with the given options. -/
def ofOptions (options : Options) : Except Problem Generator :=
  make options.header fun e => e.exports options.exports

variable (g : Generator)

/-! ### One module -/

/-- The data that the template of a module is rendered with. -/
def templateData (exports : Exports) (platform : Option String) : Json :=
  .object <|
    [("tool", .string g.header.toolName), ("framework", .string g.header.uiFramework),
      ("platform", match Platform.named? platform with
        | some p => .string p
        | none => .null)] ++ exports.jsonMembers

/-- The text of the module with the given exports. -/
def assemble (exports : Exports) (platform : Option String) : Except Problem String :=
  match g.templates.render templateName (g.templateData exports platform) with
  | .ok text => .ok text
  | .error e => .error (.template e)

/-- The text of the module for an extraction. -/
def moduleText (e : Extraction) (platform : Option String) : Except Problem String := do
  g.assemble (← g.exporter e) platform

/-- The text of the module for the JSON text of an extraction. -/
def moduleTextOfJson (json : String) (platform : Option String) : Except Problem String :=
  match Extraction.read json with
  | .ok e => g.moduleText e platform
  | .error e => .error (.json e)

/-! ### Modules for several platforms -/

/-- The modules that come of some steps with the given exports. -/
def modulesOf (exports : Exports) : List Platform.Step → Except Problem (List PlatformModule)
  | [] => .ok []
  | .skip _ :: ss => modulesOf exports ss
  | .reject platform :: _ => .error (.unfitPlatform platform)
  | .emit platform :: ss => do
    let content ← g.assemble exports platform
    let modules ← modulesOf exports ss
    return ⟨platform, content⟩ :: modules

/-- One module for each of the platforms. The exports are written once. -/
def modules (e : Extraction) (platforms : List String) : Except Problem (List PlatformModule) := do
  g.modulesOf (← g.exporter e) (Platform.steps platforms)

/-! ### The log -/

/-- A platform as the log names it. -/
def platformText (platform : Option String) : String := platform.getD "none"

/-- A number as the log shows it. -/
def countText (n : Nat) : String := String.ofList (Nat.toDigits 10 n)

/-- What is logged about an extraction. -/
def countsRecord (e : Extraction) : Log.Record :=
  ⟨.debug, countText e.styles.size ++ " styles, " ++ countText e.atRules.size ++ " at-rules, " ++
    countText e.masks.size ++ " masks, " ++ countText e.topics.size ++ " topics"⟩

/-- What is logged for a step with the given exports. -/
def stepRecords (exports : Exports) : Platform.Step → List Log.Record
  | .emit platform =>
    [⟨.debug, "formatting style module (platform: " ++ platformText platform ++ ", " ++
      countText exports.byteLength ++ " bytes of blocks)"⟩,
      ⟨.trace, "rendering template " ++ templateName⟩]
  | .skip platform => [⟨.warn, "skipping repeated platform " ++ platformText platform⟩]
  | .reject _ => []

end Generator

end StyleModule
