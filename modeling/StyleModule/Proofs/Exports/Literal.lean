import StyleModule.Proofs.Exports.Maps
import StyleModule.Proofs.Text.Bytes

/-!
# Exports as literals

What is written for the maps of an extraction could as well be written for JSON values: the maps
become objects, and the expression for an object, written in one go, is the same text
(`Extraction.exports_eq_literalText`). An object has its members in ascending order, so this holds
if the selectors and properties are in this order, and for the styles only if none of the values is
a member of the `StyleSheet`.
-/

namespace StyleModule

open Expression

namespace OrderedMap

variable {α : Type}

/-- The keys ascend in the order of their bytes. -/
def IsAscending (m : OrderedMap α) : Prop := (m.keys.map Text.bytes).Pairwise (· < ·)

theorem isAscending_iff {m : OrderedMap α} : m.IsAscending ↔ m.keys.Pairwise (· < ·) := by
  rw [IsAscending, List.pairwise_map]
  simp only [Text.bytes_lt_bytes_iff]

/-- The members of the object are in their order already. -/
theorem isCanonical_toJson {f : α → Json} {m : OrderedMap α} (h : m.IsAscending)
    (hf : ∀ e ∈ m.entries, (f e.2).IsCanonical) : (m.toJson f).IsCanonical := by
  rw [toJson, Json.IsCanonical, Json.membersCanonical_iff, List.map_map]
  refine ⟨isAscending_iff.1 h, fun member hmember => ?_⟩
  obtain ⟨e, he, rfl⟩ := List.mem_map.1 hmember
  exact hf e he

end OrderedMap

theorem PropertyValue.isCanonical_toJson (p : PropertyValue) : p.toJson.IsCanonical := by
  cases p with
  | literal l => exact l.isCanonical
  | member name => simp [toJson, Json.IsCanonical, Json.MembersCanonical]

/-- The expression for a JSON value, where an object has its members in ascending order. -/
def Expression.literalText (v : Json) : String := String.ofList (ofJson v.canonical)

namespace Extraction

/-- The selectors of each map ascend, and so do the properties of each selector. -/
structure IsAscending (e : Extraction) : Prop where
  styles : e.styles.IsAscending
  records : ∀ s ∈ e.styles.entries, s.2.IsAscending
  atRules : e.atRules.IsAscending
  masks : e.masks.IsAscending
  topics : e.topics.IsAscending

variable {α : Type} {e : Extraction}

/-! ### Maps as objects -/

/-- A map is written as the object is that stands for it. -/
theorem mapText_eq_ofJson {text : α → List Char} {f : α → Json} {m : OrderedMap α}
    (h : ∀ e ∈ m.entries, text e.2 = ofJson (f e.2)) : mapText text m = ofJson (m.toJson f) := by
  rw [mapText, OrderedMap.toJson, ofJson_object, List.map_map]
  refine congrArg objectText (List.map_congr_left fun e he => ?_)
  exact congrArg (e.1, ·) (h e he)

/-- So it is, if the keys ascend, by the writer of literals. -/
theorem mapText_eq_literalText {text : α → List Char} {f : α → Json} {m : OrderedMap α}
    (h : m.IsAscending) (htext : ∀ e ∈ m.entries, text e.2 = ofJson (f e.2))
    (hf : ∀ e ∈ m.entries, (f e.2).IsCanonical) :
    String.ofList (mapText text m) = literalText (m.toJson f) := by
  rw [literalText, Json.canonical_eq_self (OrderedMap.isCanonical_toJson h hf),
    mapText_eq_ofJson htext]

/-! ### The four maps -/

theorem isCanonical_strings (ss : List String) : (Json.array (ss.map .string)).IsCanonical := by
  rw [Json.IsCanonical, Json.itemsCanonical_iff]
  intro v hv
  obtain ⟨s, -, rfl⟩ := List.mem_map.1 hv
  trivial

/-- A condition is written as the list of its two strings. -/
theorem conditionText_eq_ofJson (c : Condition) : conditionText c = ofJson c.toJson := by
  rw [Condition.toJson, ofJson_array]
  rfl

theorem atRulesText_eq_literalText (h : e.atRules.IsAscending) :
    String.ofList e.atRulesText = literalText e.atRulesJson := by
  refine mapText_eq_literalText h (fun groups _ => ?_) fun groups _ => ?_
  · have hcondition : conditionText = fun c => ofJson c.toJson := funext conditionText_eq_ofJson
    simp only [ofJson_array, List.map_map, Function.comp_def, hcondition]
  · simp only [Json.IsCanonical, Json.itemsCanonical_iff, List.forall_mem_map]
    exact fun group _ c _ => isCanonical_strings [c.kind, c.argument]

theorem masksText_eq_literalText (h : e.masks.IsAscending) :
    String.ofList e.masksText = literalText e.masksJson :=
  mapText_eq_literalText h (fun _ _ => rfl) fun _ _ => trivial

theorem topicsText_eq_literalText (h : e.topics.IsAscending) :
    String.ofList e.topicsText = literalText e.topicsJson := by
  refine mapText_eq_literalText h (fun topics _ => ?_) fun topics _ => isCanonical_strings topics.2
  rw [ofJson_array, List.map_map]
  rfl

/-- Without references the styles are written as their JSON value is. -/
theorem stylesText_eq_literalText (h : e.IsAscending) (hrefs : e.references = []) :
    String.ofList (mapText (mapText propertyText) e.styles) = literalText e.stylesJson := by
  refine mapText_eq_literalText h.styles (fun s hs => mapText_eq_ofJson fun d hd => ?_) fun s hs =>
    OrderedMap.isCanonical_toJson (h.records s hs) fun d _ => d.2.isCanonical_toJson
  obtain ⟨property, p⟩ := d
  cases p with
  | literal l => rfl
  | member name =>
    have hmem : (⟨s.1, property, name⟩ : Reference) ∈ e.references :=
      mem_references.2 ⟨s.2, hs, hd⟩
    rw [hrefs] at hmem
    cases hmem

/-- **Exports are literals.** Where selectors and properties ascend, each map is written as the JSON
value is that stands for it. The styles are so if no property has a member of the `StyleSheet` for
its value, unless they are handed to `StyleSheet.create`. -/
theorem exports_eq_literalText (h : e.IsAscending) :
    (String.ofList e.atRulesText = literalText e.atRulesJson ∧
      String.ofList e.masksText = literalText e.masksJson ∧
      String.ofList e.topicsText = literalText e.topicsJson) ∧
    (∀ options x, e.exports options = .ok x → x.atRules = literalText e.atRulesJson ∧
      x.masks = literalText e.masksJson ∧ x.topics = literalText e.topicsJson) ∧
    (e.references = [] → e.exports ⟨false⟩ = .ok {
      styles := literalText e.stylesJson
      atRules := literalText e.atRulesJson
      masks := literalText e.masksJson
      topics := literalText e.topicsJson }) := by
  have hatRules := atRulesText_eq_literalText h.atRules
  have hmasks := masksText_eq_literalText h.masks
  have htopics := topicsText_eq_literalText h.topics
  refine ⟨⟨hatRules, hmasks, htopics⟩, fun options x hx => ?_, fun hrefs => ?_⟩
  · obtain ⟨-, rfl⟩ := exports_eq_ok_iff.1 hx
    exact ⟨hatRules, hmasks, htopics⟩
  · rw [exports_eq_ok_iff, hrefs, ← stylesText_eq_literalText h hrefs, ← hatRules, ← hmasks,
      ← htopics]
    exact ⟨fun r hr => absurd hr List.not_mem_nil, rfl⟩

/-- Two masks in order, and a declaration whose property is no identifier. -/
def marked : Extraction :=
  ((empty.withMask "a" 1).withMask "é" 2).withRecord "a"
    (.ofList [("--gap", .literal (.ofJson (.array [.int 1, .string "é"])))])

theorem exports_eq_literalText_marked :
    marked.masks.IsAscending ∧ marked.exports ⟨false⟩ = .ok {
      styles := literalText (.object [("a", .object [("--gap", .array [.int 1, .string "é"])])])
      masks := literalText (.object [("a", .int 1), ("é", .int 2)]) } := by
  have hmasks : marked.masks.IsAscending := OrderedMap.isAscending_iff.2 (by decide)
  have hascending : marked.IsAscending := {
    styles := OrderedMap.isAscending_iff.2 (by decide)
    records := by
      intro s hs
      obtain rfl := List.mem_singleton.1 hs
      exact OrderedMap.isAscending_iff.2 (by decide)
    atRules := OrderedMap.isAscending_iff.2 (by decide)
    masks := hmasks
    topics := OrderedMap.isAscending_iff.2 (by decide) }
  exact ⟨hmasks, (exports_eq_literalText hascending).2.2 rfl⟩

end Extraction

end StyleModule
