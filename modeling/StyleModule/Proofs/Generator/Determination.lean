import StyleModule.Proofs.Generator.Lines
import StyleModule.Proofs.Text.Literal

/-!
# Modules determine what they were generated from

Every part of a module stays on a line of its own (`Generator.lines`), so a module can
be taken apart again: the lines are told apart by their ends, the line for a platform is there or
not, and the parts are told from what stands around them on their lines. Two modules with the same
text have therefore come of the same options, platforms and exports
(`Generator.eq_of_moduleText_eq`).
-/

namespace StyleModule.Generator

open Text

/-! ### Parts -/

theorem platformLines_inj {p q : Option String} (h : platformLines p = platformLines q) :
    Platform.named? p = Platform.named? q := by
  unfold platformLines at h
  cases hp : Platform.named? p with
  | none => cases hq : Platform.named? q with
    | none => rfl
    | some q => simp [hp, hq] at h
  | some p => cases hq : Platform.named? q with
    | none => simp [hp, hq] at h
    | some q =>
      simp only [hp, hq, List.cons.injEq, and_true, framed_inj] at h
      rw [Quoted.single_inj h]

/-- The parts of a module can be told from its lines. -/
theorem lines_inj {header₁ header₂ : HeaderOptions} {x₁ x₂ : Exports} {p₁ p₂ : Option String}
    (h : lines header₁ x₁ p₁ = lines header₂ x₂ p₂) :
    header₁ = header₂ ∧ x₁ = x₂ ∧ Platform.named? p₁ = Platform.named? p₂ := by
  simp only [lines, List.cons.injEq, framed_inj, String.toList_inj, true_and] at h
  obtain ⟨htool, hframework, hrest⟩ := h
  -- After the line for the platform there are as many lines in both.
  obtain ⟨hplatform, hexports⟩ := List.append_inj' hrest rfl
  simp only [List.cons.injEq, framed_inj, String.toList_inj] at hexports
  obtain ⟨hstyles, hatRules, hmasks, htopics, -⟩ := hexports
  cases header₁
  cases header₂
  cases x₁
  cases x₂
  simp only [HeaderOptions.mk.injEq, Exports.mk.injEq]
  exact ⟨⟨htool, Json.double_inj hframework⟩, ⟨hstyles, hatRules, hmasks, htopics⟩,
    platformLines_inj hplatform⟩

/-- The text of a module tells its parts. -/
theorem layout_inj {header₁ header₂ : HeaderOptions} {x₁ x₂ : Exports} {p₁ p₂ : Option String}
    (h : layout header₁ x₁ p₁ = layout header₂ x₂ p₂)
    (h₁ : ∀ t ∈ lines header₁ x₁ p₁, IsLine t) (h₂ : ∀ t ∈ lines header₂ x₂ p₂, IsLine t) :
    header₁ = header₂ ∧ x₁ = x₂ ∧ Platform.named? p₁ = Platform.named? p₂ := by
  have htext := congrArg String.toList h
  rw [toList_layout, toList_layout] at htext
  exact lines_inj (unlines_inj h₁ h₂ htext)

/-! ### Modules -/

theorem stylesText_eq_cons {e : Extraction} {t : List Char} (h : e.stylesText = .ok t) :
    ∃ s, t = '\x7b' :: s := by
  obtain ⟨ms, -, h⟩ := Json.bind_eq_ok.1 h
  cases h
  exact ⟨_, rfl⟩

/-- Whether the styles are handed to `StyleSheet.create` is told by the first character. -/
theorem stylesExport_inj {o₁ o₂ : ExportOptions} {s₁ s₂ : List Char}
    (h : Extraction.stylesExport o₁ ('\x7b' :: s₁) = Extraction.stylesExport o₂ ('\x7b' :: s₂)) :
    o₁ = o₂ := by
  obtain ⟨create₁⟩ := o₁
  obtain ⟨create₂⟩ := o₂
  cases create₁ <;> cases create₂ <;> simp [Extraction.stylesExport] at h ⊢

theorem exports_options_inj {e₁ e₂ : Extraction} {o₁ o₂ : ExportOptions} {x : Exports}
    (h₁ : e₁.exports o₁ = .ok x) (h₂ : e₂.exports o₂ = .ok x) : o₁ = o₂ := by
  obtain ⟨t₁, ht₁, h₁⟩ := Json.bind_eq_ok.1 h₁
  obtain ⟨t₂, ht₂, h₂⟩ := Json.bind_eq_ok.1 h₂
  obtain ⟨s₁, rfl⟩ := stylesText_eq_cons ht₁
  obtain ⟨s₂, rfl⟩ := stylesText_eq_cons ht₂
  cases h₁
  have hstyles := congrArg Exports.styles (Except.ok.inj h₂)
  exact (stylesExport_inj (String.ofList_injective hstyles)).symm

/-- A module is laid out from its exports, and each part of it is on one line. -/
theorem moduleText_eq_ok {o : Options} {g : Generator} {e : Extraction} {p : Option String}
    {text : String} (hg : ofOptions o = .ok g) (htext : g.moduleText e p = .ok text) :
    ∃ x, e.exports o.exports = .ok x ∧ text = layout o.header x p ∧
      ∀ t ∈ lines o.header x p, IsLine t := by
  obtain ⟨htool, rfl⟩ := make_eq_ok_iff.1 hg
  obtain ⟨x, hx, htext⟩ := Json.bind_eq_ok.1 htext
  rw [assemble_made] at htext
  refine ⟨x, hx, (Except.ok.inj htext).symm, ?_⟩
  simp only [isLine_iff]
  exact isFreeOf_isLineBreak_lines htool hx

/-- **The text of a module determines what it was generated from.** Modules with the same text have
come of the same options, of platforms that stand for the same, and of the same exports. -/
theorem eq_of_moduleText_eq {o₁ o₂ : Options} {g₁ g₂ : Generator} {e₁ e₂ : Extraction}
    {p₁ p₂ : Option String} {text : String} (hg₁ : ofOptions o₁ = .ok g₁)
    (hg₂ : ofOptions o₂ = .ok g₂) (h₁ : g₁.moduleText e₁ p₁ = .ok text)
    (h₂ : g₂.moduleText e₂ p₂ = .ok text) :
    o₁ = o₂ ∧ Platform.named? p₁ = Platform.named? p₂ ∧
      ∃ x, e₁.exports o₁.exports = .ok x ∧ e₂.exports o₂.exports = .ok x := by
  obtain ⟨x₁, hx₁, rfl, hlines₁⟩ := moduleText_eq_ok hg₁ h₁
  obtain ⟨x₂, hx₂, htext, hlines₂⟩ := moduleText_eq_ok hg₂ h₂
  obtain ⟨hheader, rfl, hplatform⟩ := layout_inj htext hlines₁ hlines₂
  have hexports := exports_options_inj hx₁ hx₂
  obtain ⟨header₁, exports₁⟩ := o₁
  obtain ⟨header₂, exports₂⟩ := o₂
  cases hheader
  cases hexports
  exact ⟨rfl, hplatform, x₁, hx₁, hx₂⟩

/-- The module for no platform is the module for the empty name. -/
theorem eq_of_moduleText_eq_unnamed :
    ∃ g text, ofOptions {} = .ok g ∧ g.moduleText .empty none = .ok text ∧
      g.moduleText .empty (some "") = .ok text ∧
      Platform.named? none = Platform.named? (some "") := by
  have hg : ofOptions {} = .ok (made {} fun e => e.exports {}) :=
    make_eq_ok_iff.2 ⟨by decide, rfl⟩
  have hx : Extraction.empty.exports {} = .ok { styles := "StyleSheet.create(\x7b\x7d)" } := rfl
  have hnone : (made {} fun e => e.exports {}).moduleText .empty none = .ok _ :=
    moduleText_made hx none
  have hempty : (made {} fun e => e.exports {}).moduleText .empty (some "") = .ok _ :=
    moduleText_made hx (some "")
  exact ⟨_, _, hg, hnone, hempty, (eq_of_moduleText_eq hg hg hnone hempty).2.1⟩

end StyleModule.Generator
