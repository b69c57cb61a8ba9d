import StyleModule.Generator
import StyleModule.Proofs.Template.Registry
import StyleModule.Proofs.Template.Rendering

/-!
# The layout of a module

The template of a module is read as what it looks like (`Generator.parse?_templateText`), so a
generator is refused for its tool's name only (`Generator.make_eq_ok_iff`). Rendering the template
then comes to putting texts together (`Generator.assemble_of_make`), whatever these are.
-/

namespace StyleModule.Generator

open Template

/-! ### Reading the template -/

/-- The texts and tags of the template of a module. -/
def modulePieces : List Piece :=
  [.text "// This file was generated by ".toList,
    .tag (.value (memberPath "tool")) .none .none,
    .text ". Do not edit!\nconst \x7b StyleSheet \x7d = require(".toList,
    .tag (.call ⟨"js_string", [memberPath "framework"], [], []⟩) .none .none,
    .text ")\nmodule.exports = \x7b\n".toList,
    .tag (.start ⟨"if", [memberPath "platform"], [], []⟩) .none .none,
    .text "  platform: ".toList,
    .tag (.call ⟨"js_quote", [memberPath "platform"], [], []⟩) .none .none,
    .text ",\n".toList,
    .tag (.finish "if") .none .none,
    .text "  styles: ".toList, .tag (.value (memberPath "styles")) .none .none,
    .text ",\n  atRules: ".toList, .tag (.value (memberPath "atRules")) .none .none,
    .text ",\n  masks: ".toList, .tag (.value (memberPath "masks")) .none .none,
    .text ",\n  topics: ".toList, .tag (.value (memberPath "topics")) .none .none,
    .text ",\n\x7d\n".toList]

/-- The template of a module, once it is read. -/
def moduleTemplate : Template :=
  [.text "// This file was generated by ".toList,
    .value (memberPath "tool"),
    .text ". Do not edit!\nconst \x7b StyleSheet \x7d = require(".toList,
    .call ⟨"js_string", [memberPath "framework"], [], []⟩,
    .text ")\nmodule.exports = \x7b\n".toList,
    .block ⟨"if", [memberPath "platform"], [], []⟩
      [.text "  platform: ".toList,
        .call ⟨"js_quote", [memberPath "platform"], [], []⟩,
        .text ",\n".toList] [],
    .text "  styles: ".toList, .value (memberPath "styles"),
    .text ",\n  atRules: ".toList, .value (memberPath "atRules"),
    .text ",\n  masks: ".toList, .value (memberPath "masks"),
    .text ",\n  topics: ".toList, .value (memberPath "topics"),
    .text ",\n\x7d\n".toList]

/-- The tags for the line of the platform: it is there if there is a platform. -/
theorem isTag_platform :
    IsTag "#if platform".toList (.start ⟨"if", [memberPath "platform"], [], []⟩) ∧
      IsTag "js_quote platform".toList (.call ⟨"js_quote", [memberPath "platform"], [], []⟩) ∧
      IsTag "/if".toList (.finish "if") :=
  ⟨isTag_start (w := "if platform".toList) fun _ => helperCall_single "if" "platform" rfl rfl rfl
      (fun _ => rfl) (fun _ => rfl) rfl,
    isTag_call (fun _ => rfl) (fun _ => helperCall_single "js_quote" "platform" rfl rfl rfl
      (fun _ => rfl) (fun _ => rfl) rfl) rfl,
    isTag_finish (w := "if".toList) fun _ => rfl⟩

theorem isTag_framework : IsTag "js_string framework".toList
    (.call ⟨"js_string", [memberPath "framework"], [], []⟩) :=
  isTag_call (fun _ => rfl) (fun _ => helperCall_single "js_string" "framework" rfl rfl rfl
    (fun _ => rfl) (fun _ => rfl) rfl) rfl

theorem takenApart_templateText : TakenApart templateText.toList modulePieces := by
  obtain ⟨hif, hquote, hend⟩ := isTag_platform
  have htool : IsTag "tool".toList (.value (memberPath "tool")) :=
    isTag_value (fun _ => rfl) (fun _ => rfl) (fun _ => rfl) (fun _ => rfl)
  have hstyles : IsTag "styles".toList (.value (memberPath "styles")) :=
    isTag_value (fun _ => rfl) (fun _ => rfl) (fun _ => rfl) (fun _ => rfl)
  have hatRules : IsTag "atRules".toList (.value (memberPath "atRules")) :=
    isTag_value (fun _ => rfl) (fun _ => rfl) (fun _ => rfl) (fun _ => rfl)
  have hmasks : IsTag "masks".toList (.value (memberPath "masks")) :=
    isTag_value (fun _ => rfl) (fun _ => rfl) (fun _ => rfl) (fun _ => rfl)
  have htopics : IsTag "topics".toList (.value (memberPath "topics")) :=
    isTag_value (fun _ => rfl) (fun _ => rfl) (fun _ => rfl) (fun _ => rfl)
  -- One fact for each line of the template.
  have header : Adds
      "// This file was generated by \x7b\x7btool\x7d\x7d. Do not edit!\n".toList _ :=
    adds_line "// This file was generated by " "tool" ". Do not edit!\n" rfl rfl htool rfl
  have source : Adds
      "const \x7b StyleSheet \x7d = require(\x7b\x7bjs_string framework\x7d\x7d)\n".toList _ :=
    adds_line "const \x7b StyleSheet \x7d = require(" "js_string framework" ")\n" rfl rfl
      isTag_framework rfl
  have first : Adds "module.exports = \x7b\n".toList _ := adds_text rfl
  have platform : Adds
      "\x7b\x7b#if platform\x7d\x7d  platform: \x7b\x7bjs_quote platform\x7d\x7d,\n".toList _ :=
    (adds_line "" "#if platform" "" rfl rfl hif rfl).append
      (adds_line "  platform: " "js_quote platform" ",\n" rfl rfl hquote rfl)
  have styles : Adds "\x7b\x7b/if\x7d\x7d  styles: \x7b\x7bstyles\x7d\x7d,\n".toList _ :=
    (adds_line "" "/if" "" rfl rfl hend rfl).append
      (adds_line "  styles: " "styles" ",\n" rfl rfl hstyles rfl)
  have atRules : Adds "  atRules: \x7b\x7batRules\x7d\x7d,\n".toList _ :=
    adds_line "  atRules: " "atRules" ",\n" rfl rfl hatRules rfl
  have masks : Adds "  masks: \x7b\x7bmasks\x7d\x7d,\n".toList _ :=
    adds_line "  masks: " "masks" ",\n" rfl rfl hmasks rfl
  have topics : Adds "  topics: \x7b\x7btopics\x7d\x7d,\n".toList _ :=
    adds_line "  topics: " "topics" ",\n" rfl rfl htopics rfl
  have last : Adds "\x7d\n".toList _ := adds_text rfl
  have hlines := (((((((header.append source).append first).append platform).append styles).append
    atRules).append masks).append topics).append last
  have htext := hlines [] [] takenApart_nil
  simp only [List.append_nil, ← String.toList_append] at htext
  exact htext

theorem trim_settle_modulePieces : trim .none (settle true modulePieces) = modulePieces := by
  -- No tag for a block has its line for itself.
  have hplatform : Text.startsBlankLine "  platform: ".toList = false := rfl
  have hstyles : Text.startsBlankLine "  styles: ".toList = false := rfl
  simp only [modulePieces, settle, Tag.isSilent, startsBlank, hplatform, hstyles, Bool.and_false,
    Bool.false_and, Bool.false_eq_true, ↓reduceIte, trim, marginBefore, Margin.dropBefore,
    Margin.dropAfter]

theorem parse?_templateText : parse? templateText = some moduleTemplate :=
  parse?_of_takenApart takenApart_templateText trim_settle_modulePieces rfl

/-- The generator that is made for a header. -/
def made (header : HeaderOptions) (exporter : Exporter) : Generator :=
  ⟨header, exporter, ⟨OrderedMap.insert ∅ templateName moduleTemplate⟩⟩

/-- A generator is made unless the tool's name would not stay on its line. -/
theorem make_eq_ok_iff {header : HeaderOptions} {exporter : Exporter} {g : Generator} :
    make header exporter = .ok g ↔
      header.toolName.toList.any endsLine = false ∧ g = made header exporter := by
  have hregister : (Registry.empty .plain).register? templateName templateText =
      some ⟨OrderedMap.insert ∅ templateName moduleTemplate⟩ := by
    have hparse : Engine.plain.parse? templateText = some moduleTemplate := parse?_templateText
    rw [Registry.register?, hparse]
    rfl
  unfold make
  rw [hregister]
  cases header.toolName.toList.any endsLine <;> simp [made, eq_comm]

/-! ### The text -/

/-- The line for a platform, if there is one. The empty name stands for none. -/
def platformLine : Option String → String
  | none => ""
  | some p =>
    if p = "" then "" else "  platform: " ++ String.ofList (Text.Quoted.single p) ++ ",\n"

/-- The text of a module, as the concatenation of its parts. -/
def layout (header : HeaderOptions) (x : Exports) (platform : Option String) : String :=
  "// This file was generated by " ++ header.toolName ++ ". Do not edit!\n" ++
  "const \x7b StyleSheet \x7d = require(" ++
    String.ofList (Text.Quoted.double header.uiFramework) ++ ")\n" ++
  "module.exports = \x7b\n" ++
  platformLine platform ++
  "  styles: " ++ x.styles ++ ",\n" ++
  "  atRules: " ++ x.atRules ++ ",\n" ++
  "  masks: " ++ x.masks ++ ",\n" ++
  "  topics: " ++ x.topics ++ ",\n" ++
  "\x7d\n"

theorem named?_some {p : String} (hp : p ≠ "") : Platform.named? (some p) = some p := by
  simp [Platform.named?, hp]

/-- The block for a platform puts in its line. -/
theorem render_platform {members : List (String × Json)} {platform : Option String}
    (hv : Json.member? members "platform" = some (match Platform.named? platform with
      | some p => .string p
      | none => .null)) :
    (Node.block ⟨"if", [memberPath "platform"], [], []⟩ [.text "  platform: ".toList,
        .call ⟨"js_quote", [memberPath "platform"], [], []⟩, .text ",\n".toList] []).render
      { data := .object members } = .ok (platformLine platform).toList := by
  refine (render_if rfl hv).trans ?_
  cases platform with
  | none => rfl
  | some p =>
    by_cases hp : p = ""
    · subst hp
      rfl
    · rw [named?_some hp] at hv ⊢
      have htrue : isTruthy (.string p) = true := by simp [isTruthy, hp]
      have hline : (platformLine (some p)).toList =
          "  platform: ".toList ++ (Text.Quoted.single p ++ (",\n".toList ++ [])) := by
        simp [platformLine, hp]
      rw [if_pos htrue, hline]
      exact renderAll_cons rfl (renderAll_cons (render_quote rfl hv) (renderAll_cons rfl rfl))

theorem renderAll_moduleTemplate (g : Generator) (x : Exports) (platform : Option String) :
    renderAll { data := g.templateData x platform } moduleTemplate =
      .ok (layout g.header x platform).toList := by
  have hnodes : renderAll { data := g.templateData x platform } moduleTemplate = .ok (
      "// This file was generated by ".toList ++ (g.header.toolName.toList ++
      (". Do not edit!\nconst \x7b StyleSheet \x7d = require(".toList ++
      (Text.Quoted.double g.header.uiFramework ++ (")\nmodule.exports = \x7b\n".toList ++
      ((platformLine platform).toList ++ ("  styles: ".toList ++ (x.styles.toList ++
      (",\n  atRules: ".toList ++ (x.atRules.toList ++ (",\n  masks: ".toList ++ (x.masks.toList ++
      (",\n  topics: ".toList ++ (x.topics.toList ++ (",\n\x7d\n".toList ++ []))))))))))))))) :=
    renderAll_cons rfl (renderAll_cons (render_value rfl rfl)
    (renderAll_cons rfl (renderAll_cons (render_quote rfl rfl) (renderAll_cons rfl
    (renderAll_cons (render_platform rfl) (renderAll_cons rfl (renderAll_cons (render_value rfl rfl)
    (renderAll_cons rfl (renderAll_cons (render_value rfl rfl)
    (renderAll_cons rfl (renderAll_cons (render_value rfl rfl)
    (renderAll_cons rfl (renderAll_cons (render_value rfl rfl)
    (renderAll_cons rfl rfl))))))))))))))
  have hframework : (String.ofList (Text.Quoted.double g.header.uiFramework)).toList =
      Text.Quoted.double g.header.uiFramework := String.toList_ofList
  rw [hnodes]
  unfold layout
  simp only [String.toList_append, hframework, List.append_assoc, List.append_nil]
  rfl

theorem assemble_made (header : HeaderOptions) (exporter : Exporter) (x : Exports)
    (platform : Option String) :
    (made header exporter).assemble x platform = .ok (layout header x platform) := by
  have hget : (OrderedMap.insert ∅ templateName moduleTemplate).get? templateName =
      some moduleTemplate := by
    rw [OrderedMap.get?_insert, if_pos rfl]
  have hrender : (made header exporter).templates.render templateName
      ((made header exporter).templateData x platform) =
      Template.render moduleTemplate ((made header exporter).templateData x platform) :=
    Registry.render_of_get? hget _
  rw [assemble, hrender, Template.render, renderAll_moduleTemplate]
  exact congrArg Except.ok String.ofList_toList

theorem moduleText_made {header : HeaderOptions} {exporter : Exporter} {e : Extraction}
    {x : Exports} (hx : exporter e = .ok x) (platform : Option String) :
    (made header exporter).moduleText e platform = .ok (layout header x platform) := by
  have hexporter : (made header exporter).exporter e = .ok x := hx
  rw [moduleText, hexporter]
  exact assemble_made header exporter x platform

/-- **Rendering a module is plain concatenation and never fails.** Nothing that is put in is taken
for a part of the template, and none of it is changed. -/
theorem assemble_of_make {header : HeaderOptions} {exporter : Exporter} {g : Generator}
    (h : make header exporter = .ok g) (x : Exports) (platform : Option String) :
    g.assemble x platform = .ok (layout header x platform) := by
  obtain ⟨-, rfl⟩ := make_eq_ok_iff.1 h
  exact assemble_made header exporter x platform

/-- Braces, quotes and line breaks are put in as they are. -/
theorem assemble_of_make_braces :
    ∃ g, make ⟨"\x7b\x7btool\x7d\x7d", "a\"b"⟩ (fun _ => .ok {}) = .ok g ∧
      g.assemble ⟨"\x7b\x7b/if\x7d\x7d", "<&>", "\n", "\\"⟩ (some "it's") =
        .ok (layout ⟨"\x7b\x7btool\x7d\x7d", "a\"b"⟩
          ⟨"\x7b\x7b/if\x7d\x7d", "<&>", "\n", "\\"⟩ (some "it's")) := by
  have hmake : make ⟨"\x7b\x7btool\x7d\x7d", "a\"b"⟩ (fun _ => .ok {}) = .ok _ :=
    make_eq_ok_iff.2 ⟨by decide, rfl⟩
  exact ⟨_, hmake, assemble_of_make hmake _ _⟩

end StyleModule.Generator
