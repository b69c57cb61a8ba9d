import StyleModule.Proofs.Exports
import StyleModule.Proofs.Exports.Members

/-!
# Exports as texts of maps

All exports are written in one way: a map becomes the literal of an object, with a text for each of
its keys. This holds of the styles as well, if they can be written at all
(`Extraction.stylesText_eq_ok_iff`).
-/

namespace StyleModule

open Expression

namespace Expression

/-- The literal of an object with a text for each of some keys. -/
def keyedText (keys : List String) (text : String → List Char) : List Char :=
  objectText (keys.map fun key => (key, text key))

end Expression

namespace Extraction

variable {α : Type}

theorem mapText_eq_keyedText {f : α → List Char} {m : OrderedMap α} {text : String → List Char}
    (h : ∀ e ∈ m.entries, f e.2 = text e.1) : mapText f m = keyedText m.keys text := by
  rw [mapText, keyedText, OrderedMap.keys, List.map_map]
  refine congrArg objectText (List.map_congr_left fun e he => ?_)
  exact congrArg (e.1, ·) (h e he)

/-! ### Styles -/

/-- The expression for the value of a property, also for a member that has no proper name. -/
def propertyText : PropertyValue → List Char
  | .literal l => ofJson l.json
  | .member name => "StyleSheet.".toList ++ name.toList

theorem valueText_eq_ok {selector property : String} {p : PropertyValue} {t : List Char}
    (h : valueText selector property p = .ok t) : t = propertyText p := by
  cases p with
  | literal l =>
    cases h
    rfl
  | member name =>
    rw [valueText] at h
    split_ifs at h
    cases h
    rfl

/-- A map whose values can be written is written like any other. -/
theorem objectText_of_mapM {ε : Type} {m : OrderedMap α} {f : α → List Char}
    {text : String → α → Except ε (List Char)} {ms : List (String × List Char)}
    (h : m.entries.mapM (fun e => do return (e.1, ← text e.1 e.2)) = .ok ms)
    (htext : ∀ key a t, text key a = .ok t → t = f a) : objectText ms = mapText f m := by
  have hmembers : List.Forall₂ (fun member e => member = (e.1, f e.2)) ms m.entries :=
    forall₂_members_of_mapM h fun e _ t ht => by rw [htext _ _ _ ht]
  have heq : ms = m.entries.map fun e => (e.1, f e.2) := by
    rw [← List.forall₂_eq_eq_eq, List.forall₂_map_right_iff]
    exact hmembers
  rw [heq]
  rfl

variable {e : Extraction}

theorem eq_of_stylesText {t : List Char} (h : e.stylesText = .ok t) :
    t = mapText (mapText propertyText) e.styles := by
  obtain ⟨ms, hms, h⟩ := Json.bind_eq_ok.1 h
  cases h
  refine objectText_of_mapM hms fun selector record t ht => ?_
  obtain ⟨ns, hns, ht⟩ := Json.bind_eq_ok.1 ht
  cases ht
  exact objectText_of_mapM hns fun property p t ht => valueText_eq_ok ht

/-- The styles can be written if all references are proper. -/
theorem stylesText_eq_ok_iff {t : List Char} : e.stylesText = .ok t ↔
    (∀ r ∈ e.references, ¬r.IsImproper) ∧ t = mapText (mapText propertyText) e.styles := by
  have hproper : (∀ r ∈ e.references, ¬r.IsImproper) ↔ ∃ t, e.stylesText = .ok t := by
    rw [← failure?_eq_none_iff, failure?_stylesText, Option.map_eq_none_iff, improper?,
      List.find?_eq_none]
    simp only [Reference.isImproper_iff]
  rw [hproper]
  constructor
  · intro h
    exact ⟨⟨t, h⟩, eq_of_stylesText h⟩
  · rintro ⟨⟨u, hu⟩, rfl⟩
    rw [hu, eq_of_stylesText hu]

/-- What the exports are, if they can be written. -/
theorem exports_eq_ok_iff {options : ExportOptions} {x : Exports} : e.exports options = .ok x ↔
    (∀ r ∈ e.references, ¬r.IsImproper) ∧ x = {
      styles := String.ofList (stylesExport options (mapText (mapText propertyText) e.styles))
      atRules := String.ofList e.atRulesText
      masks := String.ofList e.masksText
      topics := String.ofList e.topicsText } := by
  have hexports : e.exports options = .ok x ↔ ∃ t, e.stylesText = .ok t ∧ x = {
      styles := String.ofList (stylesExport options t)
      atRules := String.ofList e.atRulesText
      masks := String.ofList e.masksText
      topics := String.ofList e.topicsText } := by
    rw [exports, Json.bind_eq_ok]
    simp only [Json.pure_eq_ok, Except.ok.injEq, eq_comm]
  simp only [hexports, stylesText_eq_ok_iff]
  constructor
  · rintro ⟨t, ⟨hproper, rfl⟩, hx⟩
    exact ⟨hproper, hx⟩
  · rintro ⟨hproper, hx⟩
    exact ⟨_, ⟨hproper, rfl⟩, hx⟩

end Extraction

end StyleModule
