import Mathlib.Data.String.Basic
import StyleModule.Proofs.Exports.Entries
import StyleModule.Proofs.Extraction.Equality
import StyleModule.Proofs.Text.Scanning

/-!
# Exports of equal extractions

Extractions can be equal and list their selectors in different orders. Their exports then differ as
texts, but in nothing but the order of entries (`Exports.SameEntries`): each selector, and in the
styles each of its properties, is read with the same text. The exports have the same lengths in
bytes as well, and either both or neither can be written (`Extraction.exports_of_beq`).
-/

namespace StyleModule

/-! ### Texts in another order -/

namespace Text

theorem cons_commaSeparated {ts : List (List Char)} (h : ts ≠ []) :
    ',' :: commaSeparated ts = ts.flatMap fun t => ',' :: t := by
  cases ts with
  | nil => exact absurd rfl h
  | cons t ts => rw [commaSeparated_cons, List.flatMap_cons, List.cons_append]

/-- Parts in another order, with the characters of each in another order, are made of the same
characters. -/
theorem perm_commaSeparated {α : Type} {as bs : List α} {f g : α → List Char} (h : as.Perm bs)
    (hfg : ∀ a ∈ as, (f a).Perm (g a)) :
    (commaSeparated (as.map f)).Perm (commaSeparated (bs.map g)) := by
  by_cases has : as = []
  · obtain rfl := has
    rw [← h.nil_eq]
    exact .refl _
  · have hbs : bs ≠ [] := fun hbs => has (h.trans (.of_eq hbs)).eq_nil
    -- With one more comma in front all parts are alike.
    refine (List.perm_cons ',').1 ?_
    rw [cons_commaSeparated (by simpa), cons_commaSeparated (by simpa), List.flatMap_map,
      List.flatMap_map]
    exact h.flatMap fun a ha => (hfg a ha).cons ','

theorem utf8Len_perm {cs ds : List Char} (h : cs.Perm ds) :
    String.utf8Len cs = String.utf8Len ds := by
  induction h with
  | nil => rfl
  | cons c _ ih => rw [String.utf8Len_cons, String.utf8Len_cons, ih]
  | swap c d cs => simp only [String.utf8Len_cons, Nat.add_right_comm]
  | trans _ _ ih₁ ih₂ => rw [ih₁, ih₂]

theorem utf8ByteSize_perm {cs ds : List Char} (h : cs.Perm ds) :
    (String.ofList cs).utf8ByteSize = (String.ofList ds).utf8ByteSize := by
  rw [String.utf8ByteSize_ofList, String.utf8ByteSize_ofList, utf8Len_perm h]

end Text

namespace Expression

theorem perm_keyedText {keys keys' : List String} {text text' : String → List Char}
    (h : keys.Perm keys') (htext : ∀ key ∈ keys, (text key).Perm (text' key)) :
    (keyedText keys text).Perm (keyedText keys' text') := by
  rw [keyedText, keyedText, objectText, objectText, List.map_map, List.map_map]
  have hparts := Text.perm_commaSeparated (f := fun key => keyText key ++ text key)
    (g := fun key => keyText key ++ text' key) h fun key hkey => (htext key hkey).append_left _
  exact (hparts.append_right _).cons _

end Expression

open Expression

/-! ### The same entries -/

namespace Extraction

/-- The properties that the declarations of a selector give a value, in order. -/
def properties (e : Extraction) (selector : String) : List String :=
  ((e.styles.get? selector).map OrderedMap.keys).getD []

end Extraction

namespace Exports

/-- Two exports are read as the same entries, each in the order of its own extraction: the orders of
the selectors and of the properties of a selector are all that is different. -/
structure SameEntries (options : ExportOptions) (a b : Extraction) (x y : Exports) : Prop where
  styles : SameMembers
    (if options.stylesheetCreate then readCreated (readEntries (readEntries readValue))
      else readEntries (readEntries readValue))
    (fun selector => SameMembers (readEntries readValue) (fun _ => Eq) (a.properties selector)
      (b.properties selector))
    a.styles.keys b.styles.keys x.styles.toList y.styles.toList
  atRules : SameMembers (readEntries (readList (readList readCondition))) (fun _ => Eq)
    a.atRules.keys b.atRules.keys x.atRules.toList y.atRules.toList
  masks : SameMembers (readEntries readNat) (fun _ => Eq) a.masks.keys b.masks.keys
    x.masks.toList y.masks.toList
  topics : SameMembers (readEntries (readList readString)) (fun _ => Eq) a.topics.keys b.topics.keys
    x.topics.toList y.topics.toList

theorem perm_stylesExport (options : ExportOptions) {t u : List Char} (h : t.Perm u) :
    (Extraction.stylesExport options t).Perm (Extraction.stylesExport options u) := by
  unfold Extraction.stylesExport
  split_ifs
  · exact (h.append_left _).append_right _
  · exact h

end Exports

namespace Extraction

open Exports

variable {a b : Extraction}

/-! ### Equal maps -/

section

variable {α β : Type} {m n : OrderedMap α} {f : α → List Char}

/-- The text for a key of a map. -/
def textOf (f : α → List Char) (m : OrderedMap α) (key : String) : List Char :=
  ((m.get? key).map f).getD []

theorem textOf_of_mem {e : String × α} (he : e ∈ m.entries) : textOf f m e.1 = f e.2 := by
  rw [textOf, OrderedMap.get?_of_mem he, Option.map_some, Option.getD_some]

theorem mapText_eq_textOf (f : α → List Char) (m : OrderedMap α) :
    mapText f m = keyedText m.keys (textOf f m) :=
  mapText_eq_keyedText fun _ he => (textOf_of_mem he).symm

variable [BEq α] [LawfulBEq α]

theorem textOf_of_beq (f : α → List Char) (h : m == n) : textOf f m = textOf f n := by
  funext key
  rw [textOf, textOf, OrderedMap.get?_eq_of_beq h]

theorem perm_mapText_of_beq (f : α → List Char) (h : m == n) :
    (mapText f m).Perm (mapText f n) := by
  rw [mapText_eq_textOf, mapText_eq_textOf, textOf_of_beq f h]
  exact perm_keyedText (OrderedMap.perm_keys_of_beq h) fun _ _ => .refl _

/-- Equal maps are written with the same members, if the texts of the values can be read. -/
theorem sameMembers_of_beq {item : Scanner β} (hitem : ∀ v, ∃ b, ReadsBack item (f v) b)
    (h : m == n) : SameMembers (readEntries item) (fun _ => Eq) m.keys n.keys
      (String.ofList (mapText f m)).toList (String.ofList (mapText f n)).toList := by
  have hperm := OrderedMap.perm_keys_of_beq h
  have hread : ∀ key ∈ m.keys, ∃ b, ReadsBack item (textOf f m key) b := by
    intro key hkey
    obtain ⟨e, he, rfl⟩ := List.mem_map.1 hkey
    rw [textOf_of_mem he]
    exact hitem e.2
  rw [String.toList_ofList, String.toList_ofList, mapText_eq_textOf, mapText_eq_textOf,
    ← textOf_of_beq f h]
  exact sameMembers_of_readsBack hperm (readEntries_keyedText hread)
    (readEntries_keyedText fun key hkey => hread key (hperm.mem_iff.2 hkey)) fun _ _ => rfl

end

/-! ### Equal declarations -/

/-- The text for the value of a property. -/
def propertyTextOf (e : Extraction) (selector property : String) : List Char :=
  ((e.value? selector property).map propertyText).getD []

/-- The styles are written from the values of properties. -/
theorem stylesText_eq_keyedText (e : Extraction) : mapText (mapText propertyText) e.styles =
    keyedText e.styles.keys fun selector =>
      keyedText (e.properties selector) (e.propertyTextOf selector) := by
  refine mapText_eq_keyedText fun s hs => ?_
  have hproperties : e.properties s.1 = s.2.keys := by
    rw [properties, OrderedMap.get?_of_mem hs, Option.map_some, Option.getD_some]
  rw [hproperties]
  refine mapText_eq_keyedText fun d hd => ?_
  rw [propertyTextOf, value?_of_mem hs hd, Option.map_some, Option.getD_some]

theorem perm_properties_of_beq (h : a == b) (selector : String) :
    (a.properties selector).Perm (b.properties selector) := by
  have hrecord := OrderedMap.beq_iff_get?.1 (beq_iff.1 h).1 selector
  unfold properties
  generalize a.styles.get? selector = r, b.styles.get? selector = q at hrecord
  cases hrecord with
  | none => exact .refl _
  | some hrq => exact OrderedMap.perm_keys_of_beq hrq

theorem propertyTextOf_of_beq (h : a == b) (hfloats : a.EveryLiteral Json.HasNoFloats) :
    a.propertyTextOf = b.propertyTextOf := by
  funext selector property
  rw [propertyTextOf, propertyTextOf, value?_eq_of_beq h hfloats]

theorem exists_value?_of_mem_properties {selector property : String}
    (h : property ∈ a.properties selector) : ∃ p, a.value? selector property = some p := by
  unfold properties at h
  cases hrecord : a.styles.get? selector with
  | none => simp [hrecord] at h
  | some record =>
    rw [hrecord, Option.map_some, Option.getD_some] at h
    obtain ⟨d, hd, rfl⟩ := List.mem_map.1 h
    exact ⟨d.2, value?_of_mem (OrderedMap.mem_of_get? hrecord) hd⟩

/-- The text for a value is read as one if it can be written. -/
theorem readsBack_propertyTextOf (hfloats : a.EveryLiteral Json.HasNoFloats)
    (hproper : ∀ r ∈ a.references, ¬r.IsImproper) {selector property : String}
    (h : property ∈ a.properties selector) :
    ∃ p, ReadsBack readValue (a.propertyTextOf selector property) p := by
  obtain ⟨p, hp⟩ := exists_value?_of_mem_properties h
  refine ⟨p, ?_⟩
  rw [propertyTextOf, hp, Option.map_some, Option.getD_some]
  cases p with
  | literal l =>
    obtain ⟨record, hs, hd⟩ := mem_of_value? hp
    exact readValue_literal (hfloats _ hs _ hd l rfl)
  | member name =>
    have hname := hproper ⟨selector, property, name⟩ (mem_references_iff_value?.2 hp)
    exact readValue_member (Text.isIdentifier_iff.2 (not_not.1 hname))

/-- Equal declarations are written with the same members. -/
theorem sameMembers_styles_of_beq (h : a == b) (hfloats : a.EveryLiteral Json.HasNoFloats)
    (hproper : ∀ r ∈ a.references, ¬r.IsImproper) (options : ExportOptions) :
    SameMembers
      (if options.stylesheetCreate then readCreated (readEntries (readEntries readValue))
        else readEntries (readEntries readValue))
      (fun selector => SameMembers (readEntries readValue) (fun _ => Eq) (a.properties selector)
        (b.properties selector))
      a.styles.keys b.styles.keys
      (stylesExport options (mapText (mapText propertyText) a.styles))
      (stylesExport options (mapText (mapText propertyText) b.styles)) := by
  have hkeys := OrderedMap.perm_keys_of_beq (beq_iff.1 h).1
  have hperm := perm_properties_of_beq h
  have hread : ∀ selector, ReadsBack (readEntries readValue)
      (keyedText (a.properties selector) (a.propertyTextOf selector)) _ := fun selector =>
    readEntries_keyedText fun property hproperty =>
      readsBack_propertyTextOf hfloats hproper hproperty
  have hread' : ∀ selector, ReadsBack (readEntries readValue)
      (keyedText (b.properties selector) (a.propertyTextOf selector)) _ := fun selector =>
    readEntries_keyedText fun property hproperty =>
      readsBack_propertyTextOf hfloats hproper ((hperm selector).mem_iff.2 hproperty)
  rw [stylesText_eq_keyedText, stylesText_eq_keyedText, ← propertyTextOf_of_beq h hfloats]
  exact sameMembers_of_readsBack hkeys
    (readsBack_stylesExport options (readEntries_keyedText fun selector _ => ⟨_, hread selector⟩))
    (readsBack_stylesExport options (readEntries_keyedText fun selector _ => ⟨_, hread' selector⟩))
    fun selector _ => sameMembers_of_readsBack (hperm selector) (hread selector) (hread' selector)
      fun _ _ => rfl

theorem perm_styles_of_beq (h : a == b) (hfloats : a.EveryLiteral Json.HasNoFloats)
    (options : ExportOptions) :
    (stylesExport options (mapText (mapText propertyText) a.styles)).Perm
      (stylesExport options (mapText (mapText propertyText) b.styles)) := by
  rw [stylesText_eq_keyedText, stylesText_eq_keyedText, ← propertyTextOf_of_beq h hfloats]
  refine perm_stylesExport options (perm_keyedText ?_ fun selector _ => perm_keyedText ?_ ?_)
  · exact OrderedMap.perm_keys_of_beq (beq_iff.1 h).1
  · exact perm_properties_of_beq h selector
  · exact fun _ _ => .refl _

/-! ### Equal extractions -/

theorem sameEntries_of_beq (h : a == b) (hfloats : a.EveryLiteral Json.HasNoFloats)
    {options : ExportOptions} {x y : Exports} (hx : a.exports options = .ok x)
    (hy : b.exports options = .ok y) : SameEntries options a b x y := by
  obtain ⟨hproper, rfl⟩ := exports_eq_ok_iff.1 hx
  obtain ⟨-, rfl⟩ := exports_eq_ok_iff.1 hy
  obtain ⟨-, hatRules, hmasks, htopics⟩ := beq_iff.1 h
  exact {
    styles := by
      rw [String.toList_ofList, String.toList_ofList]
      exact sameMembers_styles_of_beq h hfloats hproper options
    atRules := sameMembers_of_beq (fun groups => ⟨groups, readGroups groups⟩) hatRules
    masks := sameMembers_of_beq (fun mask => ⟨_, readNat_toDigits mask.toNat⟩) hmasks
    topics := sameMembers_of_beq (fun topics => ⟨topics, readStrings topics⟩) htopics }

/-- Each export is as long as the other, and so are all together. -/
theorem utf8ByteSize_eq_of_beq (h : a == b) (hfloats : a.EveryLiteral Json.HasNoFloats)
    {options : ExportOptions} {x y : Exports} (hx : a.exports options = .ok x)
    (hy : b.exports options = .ok y) :
    x.styles.utf8ByteSize = y.styles.utf8ByteSize ∧
      x.atRules.utf8ByteSize = y.atRules.utf8ByteSize ∧
      x.masks.utf8ByteSize = y.masks.utf8ByteSize ∧
      x.topics.utf8ByteSize = y.topics.utf8ByteSize ∧ x.byteLength = y.byteLength := by
  obtain ⟨-, rfl⟩ := exports_eq_ok_iff.1 hx
  obtain ⟨-, rfl⟩ := exports_eq_ok_iff.1 hy
  obtain ⟨-, hatRules, hmasks, htopics⟩ := beq_iff.1 h
  have hstyles := Text.utf8ByteSize_perm (perm_styles_of_beq h hfloats options)
  have hatRules : (String.ofList a.atRulesText).utf8ByteSize = _ :=
    Text.utf8ByteSize_perm (perm_mapText_of_beq _ hatRules)
  have hmasks : (String.ofList a.masksText).utf8ByteSize = _ :=
    Text.utf8ByteSize_perm (perm_mapText_of_beq _ hmasks)
  have htopics : (String.ofList a.topicsText).utf8ByteSize = _ :=
    Text.utf8ByteSize_perm (perm_mapText_of_beq _ htopics)
  refine ⟨hstyles, hatRules, hmasks, htopics, ?_⟩
  rw [byteLength, hstyles, hatRules, hmasks, htopics]
  rfl

theorem exports_eq_ok_of_beq (h : a == b) (options : ExportOptions) :
    (∃ x, a.exports options = .ok x) ↔ ∃ y, b.exports options = .ok y := by
  simp only [exports_eq_ok_iff, mem_references_of_beq h, exists_and_left, exists_eq]

/-- **Equal extractions have equal exports up to order.** One can be written if the other can be.
Without floating point numbers both then have the same entries, whatever the options, and all
exports have the same lengths. What is added to equal extractions leaves them equal. -/
theorem exports_of_beq (h : a == b) :
    (∀ options, (∃ x, a.exports options = .ok x) ↔ ∃ y, b.exports options = .ok y) ∧
    (a.EveryLiteral Json.HasNoFloats → ∀ options x y, a.exports options = .ok x →
      b.exports options = .ok y → SameEntries options a b x y ∧
        x.styles.utf8ByteSize = y.styles.utf8ByteSize ∧
        x.atRules.utf8ByteSize = y.atRules.utf8ByteSize ∧
        x.masks.utf8ByteSize = y.masks.utf8ByteSize ∧
        x.topics.utf8ByteSize = y.topics.utf8ByteSize ∧ x.byteLength = y.byteLength) ∧
    (∀ s t : Addition, s == t → a.add s == b.add t) ∧
    ∀ ss ts : List Addition, ss == ts → a.addAll ss == b.addAll ts := by
  refine ⟨exports_eq_ok_of_beq h, fun hfloats options x y hx hy => ?_,
    fun _ _ hst => add_beq hst h, fun _ _ hss => addAll_beq hss h⟩
  exact ⟨sameEntries_of_beq h hfloats hx hy, utf8ByteSize_eq_of_beq h hfloats hx hy⟩

/-- Two declarations and two masks. -/
def boxes : Extraction :=
  empty.addAll [
    .record "box" (.ofList [("flex", .ofInt 1), ("top", .member "hairlineWidth")]),
    .mask "box" 1, .mask "text" 2]

/-- The same in another order. -/
def boxesBackwards : Extraction :=
  empty.addAll [
    .mask "text" 2, .mask "box" 1,
    .record "box" (.ofList [("top", .member "hairlineWidth"), ("flex", .ofInt 1)])]

theorem exports_of_beq_boxes :
    ∃ x y : Exports, boxes.exports ⟨false⟩ = .ok x ∧ boxesBackwards.exports ⟨false⟩ = .ok y ∧
      x.styles = "\x7bbox:\x7bflex:1,top:StyleSheet.hairlineWidth\x7d\x7d" ∧
      y.styles = "\x7bbox:\x7btop:StyleSheet.hairlineWidth,flex:1\x7d\x7d" ∧
      SameEntries ⟨false⟩ boxes boxesBackwards x y ∧ x.byteLength = y.byteLength := by
  have heq : boxes == boxesBackwards := by decide
  have hfloats : boxes.EveryLiteral Json.HasNoFloats := by
    intro s hs d hd l hl
    obtain rfl := List.mem_singleton.1 hs
    rcases List.mem_pair.1 hd with rfl | rfl <;> cases hl
    trivial
  have hx : boxes.exports ⟨false⟩ = .ok {
      styles := "\x7bbox:\x7bflex:1,top:StyleSheet.hairlineWidth\x7d\x7d"
      masks := "\x7bbox:1,text:2\x7d" } := Json.toOption_eq_some.1 (by decide +kernel)
  have hy : boxesBackwards.exports ⟨false⟩ = .ok {
      styles := "\x7bbox:\x7btop:StyleSheet.hairlineWidth,flex:1\x7d\x7d"
      masks := "\x7btext:2,box:1\x7d" } := Json.toOption_eq_some.1 (by decide +kernel)
  obtain ⟨hentries, -, -, -, -, hlength⟩ := (exports_of_beq heq).2.1 hfloats ⟨false⟩ _ _ hx hy
  exact ⟨_, _, hx, hy, rfl, rfl, hentries, hlength⟩

end Extraction

end StyleModule
