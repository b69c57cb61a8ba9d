import StyleModule.Proofs.Expression.RoundTrip
import StyleModule.Proofs.Extraction.RoundTrip

/-!
# Exports are read back

Each map is read back from the expression that is written for it, and nothing is left of the
expression: the selectors and their properties in order, members of the `StyleSheet` apart from
literals, and conditions, masks and topics. So extractions that differ in anything have different
exports.
-/

namespace StyleModule

open Expression Json

variable {α : Type}

namespace Extraction

/-! ### Style declarations -/

theorem forall₂_of_mapM_eq_ok {ε β : Type} {f : α → Except ε β} {as : List α} {bs : List β}
    (h : as.mapM f = .ok bs) : List.Forall₂ (fun a b => f a = .ok b) as bs := by
  induction as generalizing bs with
  | nil =>
    cases h
    exact .nil
  | cons a as ih =>
    rw [List.mapM_cons] at h
    obtain ⟨b, hb, h⟩ := bind_eq_ok.1 h
    obtain ⟨bs', hbs, h⟩ := bind_eq_ok.1 h
    cases h
    exact .cons hb (ih hbs)

/-- Each member of an object is written for one entry of a map. -/
theorem forall₂_members_of_mapM {ε : Type} {R : String × List Char → String × α → Prop}
    {es : List (String × α)} {text : String → α → Except ε (List Char)}
    {ms : List (String × List Char)}
    (h : es.mapM (fun e => do return (e.1, ← text e.1 e.2)) = .ok ms)
    (htext : ∀ e ∈ es, ∀ t, text e.1 e.2 = .ok t → R (e.1, t) e) : List.Forall₂ R ms es := by
  refine List.Forall₂.flip ?_
  have hall := (List.forall₂_and_left _ _).2 ⟨htext, forall₂_of_mapM_eq_ok h⟩
  refine hall.imp fun e member hmember => ?_
  obtain ⟨hR, hmember⟩ := hmember
  obtain ⟨t, ht, hmember⟩ := bind_eq_ok.1 hmember
  cases hmember
  exact hR t ht

/-- A map is read back from the texts of its values, if each of them can be written. -/
theorem readMap_of_mapM {ε : Type} {item : Scanner α} {m : OrderedMap α}
    {text : String → α → Except ε (List Char)} {ms : List (String × List Char)}
    (h : m.entries.mapM (fun e => do return (e.1, ← text e.1 e.2)) = .ok ms)
    (hitem : ∀ e ∈ m.entries, ∀ t, text e.1 e.2 = .ok t → ReadsBack item t e.2) :
    ReadsBack (readMap item) (objectText ms) m := by
  intro r _
  exact readMap_objectText
    (forall₂_members_of_mapM h fun e he t ht => ⟨rfl, hitem e he t ht⟩) r

theorem readValue_valueText {selector property : String} {p : PropertyValue} {t : List Char}
    (h : valueText selector property p = .ok t) (hp : ∀ l, p = .literal l → l.json.HasNoFloats) :
    ReadsBack readValue t p := by
  cases p with
  | literal l =>
    cases h
    exact readValue_literal (hp l rfl)
  | member name =>
    rw [valueText] at h
    split_ifs at h with hname
    cases h
    exact readValue_member hname

variable {e : Extraction}

theorem readStyles_stylesText {t : List Char} (h : e.stylesText = .ok t)
    (hfloats : e.EveryLiteral HasNoFloats) : ReadsBack readStyles t e.styles := by
  obtain ⟨ms, hms, h⟩ := bind_eq_ok.1 h
  cases h
  refine readMap_of_mapM hms fun s hs t ht => ?_
  obtain ⟨ns, hns, ht⟩ := bind_eq_ok.1 ht
  cases ht
  exact readMap_of_mapM hns fun d hd t ht => readValue_valueText ht (hfloats s hs d hd)

/-! ### The other maps -/

theorem readMap_mapText {item : Scanner α} {f : α → List Char} (h : ∀ a, ReadsBack item (f a) a)
    (m : OrderedMap α) : ReadsBack (readMap item) (mapText f m) m := by
  intro r hr
  refine readMap_objectText ?_ r
  rw [List.forall₂_map_left_iff]
  exact List.forall₂_same.2 fun e _ => ⟨rfl, h e.2⟩

theorem readsBack_arrayText {item : Scanner α} (hclose : ∀ s, item (']' :: s) = none)
    {f : α → List Char} (h : ∀ a, ReadsBack item (f a) a) (as : List α) :
    ReadsBack (readList item) (arrayText (as.map f)) as := by
  intro r hr
  refine readList_arrayText hclose ?_ r
  rw [List.forall₂_map_left_iff]
  exact List.forall₂_same.2 fun a _ => h a

theorem readList_bracket {item : Scanner α} (s : List Char) : readList item (']' :: s) = none := by
  simp [readList, readBracketed, readWord]

theorem readStrings (ss : List String) :
    ReadsBack (readList readString) (arrayText (ss.map Text.Quoted.double)) ss :=
  readsBack_arrayText (fun _ => rfl) (fun s r _ => readString_double s r) ss

theorem readCondition_conditionText (c : Condition) :
    ReadsBack readCondition (conditionText c) c := by
  intro r hr
  have hread := readStrings [c.kind, c.argument] r hr
  rw [readCondition, conditionText]
  simp only [List.map_cons, List.map_nil] at hread
  rw [hread]

theorem readCondition_bracket (s : List Char) : readCondition (']' :: s) = none := by
  rw [readCondition, readList_bracket]

theorem readGroups (groups : List (List Condition)) :
    ReadsBack (readList (readList readCondition))
      (arrayText (groups.map fun group => arrayText (group.map conditionText))) groups :=
  readsBack_arrayText readList_bracket (fun group =>
    readsBack_arrayText readCondition_bracket readCondition_conditionText group) groups

theorem readAtRules_atRulesText : ReadsBack readAtRules e.atRulesText e.atRules :=
  readMap_mapText readGroups _

theorem readMasks_masksText : ReadsBack readMasks e.masksText e.masks := by
  refine readMap_mapText (fun mask r hr => ?_) _
  simp [readNat_toDigits mask.toNat r hr]

theorem readTopics_topicsText : ReadsBack readTopics e.topicsText e.topics :=
  readMap_mapText readStrings _

/-! ### Whole texts -/

theorem readWhole_ofList {scanner : Scanner α} {t : List Char} {a : α} (h : ReadsBack scanner t a) :
    readWhole scanner (String.ofList t) = some a := by
  have hread := h [] ends_nil
  rw [List.append_nil] at hread
  rw [readWhole, String.toList_ofList, hread]

theorem readCreated_append {scanner : Scanner α} {t : List Char} {a : α}
    (h : ReadsBack scanner t a) :
    ReadsBack (readCreated scanner) ("StyleSheet.create(".toList ++ t ++ [')']) a := by
  intro r hr
  have hclose : Ends (')' :: r) := ends_cons (by decide) r
  rw [readCreated, List.append_assoc, List.append_assoc, readWord_append]
  simp [h _ hclose, readWord]

/-- The styles are read back, handed to `StyleSheet.create` or not. -/
theorem readsBack_stylesExport (options : ExportOptions) {scanner : Scanner α} {t : List Char}
    {a : α} (h : ReadsBack scanner t a) :
    ReadsBack (if options.stylesheetCreate then readCreated scanner else scanner)
      (stylesExport options t) a := by
  unfold stylesExport
  split_ifs
  · exact readCreated_append h
  · exact h

/-- What is written for an extraction is read back from its exports. -/
theorem extraction?_exports {options : ExportOptions} {x : Exports}
    (h : e.exports options = .ok x) (hfloats : e.EveryLiteral HasNoFloats) :
    x.extraction? options = some e := by
  obtain ⟨t, ht, h⟩ := bind_eq_ok.1 h
  cases h
  have hstyles := readsBack_stylesExport options (readStyles_stylesText ht hfloats)
  simp only [Exports.extraction?, readWhole_ofList hstyles,
    readWhole_ofList readAtRules_atRulesText, readWhole_ofList readMasks_masksText,
    readWhole_ofList readTopics_topicsText]
  rfl

/-- **Exports can be read back without loss.** A reader of nothing but the grammar of exports gives
the extraction they were written for, if its numbers are whole. So two such extractions with the
same exports are the same. -/
theorem extraction?_eq_some_of_exports {options : ExportOptions} {x : Exports}
    (h : e.exports options = .ok x) (hfloats : e.EveryLiteral HasNoFloats) :
    x.extraction? options = some e ∧
      ∀ e', e'.EveryLiteral HasNoFloats → e'.exports options = .ok x → e' = e := by
  have hread := extraction?_exports h hfloats
  refine ⟨hread, fun e' hfloats' h' => ?_⟩
  have hread' := extraction?_exports h' hfloats'
  exact Option.some.inj (hread'.symm.trans hread)

/-- A string that looks like the end of its object, and a negative number. -/
theorem extraction?_eq_some_of_exports_shadow :
    (Exports.mk "StyleSheet.create(\x7bbox:\x7bshadow:\x7b\"a b\":[-1,\"\x7d\\\"\"]\x7d\x7d\x7d)"
        "\x7b\x7d" "\x7b\x7d" "\x7b\x7d").extraction? ⟨true⟩ =
      some (ofLiteral (.ofJson (.object [("a b", .array [.int (-1), .string "\x7d\""])]))) := by
  refine (extraction?_eq_some_of_exports ?_ ?_).1
  · rfl
  · rw [everyLiteral_ofLiteral]
    simp [Literal.ofJson, canonical, canonicalMembers, insertNew, canonicalItems, HasNoFloats,
      Everywhere, ItemsEverywhere, MembersEverywhere]

end Extraction

end StyleModule
