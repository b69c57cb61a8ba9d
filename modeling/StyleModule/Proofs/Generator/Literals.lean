import StyleModule.Proofs.Generator.Layout
import StyleModule.Proofs.Text.Literal

/-!
# The string literals of a module

The framework and the platform stand in a module as string literals. What a script reads from where
they start is the framework and the platform that were given, and it goes on right behind them
(`Generator.read_literals`).
-/

namespace StyleModule.Generator

open Text.Quoted

/-- The text of a module after the literal for its framework and the end of that line. -/
def exportsText (x : Exports) (platform : Option String) : String :=
  platformLine platform ++
  "  styles: " ++ x.styles ++ ",\n" ++
  "  atRules: " ++ x.atRules ++ ",\n" ++
  "  masks: " ++ x.masks ++ ",\n" ++
  "  topics: " ++ x.topics ++ ",\n" ++
  "\x7d\n"

theorem toList_layout_framework (header : HeaderOptions) (x : Exports) (platform : Option String) :
    (layout header x platform).toList =
      ("// This file was generated by " ++ header.toolName ++
        ". Do not edit!\n" ++ "const \x7b StyleSheet \x7d = require(").toList ++
      (double header.uiFramework ++
        ((")\n" ++ "module.exports = \x7b\n").toList ++ (exportsText x platform).toList)) := by
  have hframework : (String.ofList (double header.uiFramework)).toList =
      double header.uiFramework := String.toList_ofList
  unfold layout exportsText
  simp only [String.toList_append, hframework, List.append_assoc]

theorem toList_exportsText_platform {p : String} (hp : p ≠ "") (x : Exports) :
    ∃ r, (exportsText x (some p)).toList =
      "  platform: ".toList ++ (single p ++ ((",\n" ++ "  styles: ").toList ++ r)) := by
  have hplatform : (String.ofList (single p)).toList = single p := String.toList_ofList
  unfold exportsText
  simp only [platformLine, hp, if_false, String.toList_append, hplatform, List.append_assoc]
  exact ⟨_, rfl⟩

/-- **String literals delimit themselves.** Of a literal and any text after it, a script reads the
string that the literal was written for, and goes on with that text. So it reads the framework and
the platform of a module as they were given. -/
theorem read_literals :
    (∀ s r, Form.single.read (single s ++ r) = some (s, r)) ∧
    (∀ s r, Form.double.read (double s ++ r) = some (s, r)) ∧
    ∀ header exporter g x platform, make header exporter = .ok g →
      ∃ text framework rest, g.assemble x platform = .ok text ∧
        text.toList = ("// This file was generated by " ++ header.toolName ++
          ". Do not edit!\n" ++ "const \x7b StyleSheet \x7d = require(").toList ++ framework ∧
        Form.double.read framework =
          some (header.uiFramework, (")\n" ++ "module.exports = \x7b\n").toList ++ rest) ∧
        ∀ p, platform = some p → p ≠ "" → ∃ literal rest',
          rest = "  platform: ".toList ++ literal ∧
          Form.single.read literal = some (p, (",\n" ++ "  styles: ").toList ++ rest') := by
  refine ⟨Form.read_single, Form.read_double, fun header exporter g x platform hg => ?_⟩
  obtain ⟨-, rfl⟩ := make_eq_ok_iff.1 hg
  refine ⟨_, _, _, assemble_made header exporter x platform,
    toList_layout_framework header x platform, Form.read_double _ _, ?_⟩
  rintro p rfl hp
  obtain ⟨r, hr⟩ := toList_exportsText_platform hp x
  exact ⟨_, r, hr, Form.read_single _ _⟩

/-- Quotes, backslashes and all kinds of line breaks, and what looks like the end of a literal. -/
theorem read_literals_quotes :
    ∃ g text framework rest literal rest',
      make ⟨"tool", "\");\\\u2028"⟩ (fun _ => .ok {}) = .ok g ∧
      g.assemble {} (some "',\n\\") = .ok text ∧
      text.toList = ("// This file was generated by " ++ "tool" ++
        ". Do not edit!\n" ++ "const \x7b StyleSheet \x7d = require(").toList ++ framework ∧
      Form.double.read framework =
        some ("\");\\\u2028", (")\n" ++ "module.exports = \x7b\n").toList ++ rest) ∧
      rest = "  platform: ".toList ++ literal ∧
      Form.single.read literal = some ("',\n\\", (",\n" ++ "  styles: ").toList ++ rest') := by
  have hg : make ⟨"tool", "\");\\\u2028"⟩ (fun _ => .ok {}) = .ok _ :=
    make_eq_ok_iff.2 ⟨by decide, rfl⟩
  obtain ⟨text, framework, rest, htext, hframework, hread, hplatform⟩ :=
    read_literals.2.2 _ _ _ {} (some "',\n\\") hg
  obtain ⟨literal, rest', hrest, hliteral⟩ := hplatform _ rfl (by decide)
  exact ⟨_, text, framework, rest, literal, rest', hg, htext, hframework, hread, hrest, hliteral⟩

end StyleModule.Generator
