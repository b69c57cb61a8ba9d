import StyleModule.Proofs.Extraction.Outline
import StyleModule.Proofs.Extraction.Parts

/-!
# The properties of an extraction

A style property has the value that its JSON value is read as, wherever it stands in the text
(`Extraction.value?_of_ofJson?`), so the form of that value alone decides whether it is a member of
the `StyleSheet`. There are two forms of members: an object with the name as its only member, which
is how members are written, and a list of the name alone.
-/

namespace StyleModule

open Json PropertyValue

namespace Extraction

/-- The value of a property of a selector. -/
def value? (e : Extraction) (selector property : String) : Option PropertyValue :=
  (e.styles.get? selector).bind fun record => record.get? property

theorem mem_of_value? {e : Extraction} {selector property : String} {p : PropertyValue}
    (h : e.value? selector property = some p) :
    ∃ record, (selector, record) ∈ e.styles.entries ∧ (property, p) ∈ record.entries := by
  obtain ⟨record, hrecord, hp⟩ := Option.bind_eq_some_iff.1 h
  exact ⟨record, OrderedMap.mem_of_get? hrecord, OrderedMap.mem_of_get? hp⟩

theorem value?_of_mem {e : Extraction} {s : String × StyleRecord} (hs : s ∈ e.styles.entries)
    {d : String × PropertyValue} (hd : d ∈ s.2.entries) : e.value? s.1 d.1 = some d.2 := by
  rw [value?, OrderedMap.get?_of_mem hs, Option.bind_some, OrderedMap.get?_of_mem hd]

/-- What a JSON value says for the declarations. -/
def writtenStyles? : Json → Option Json
  | .array vs => vs[0]?
  | v => v.get? "styles"

/-- What a JSON value says for a property of a selector. -/
def written? (v : Json) (selector property : String) : Option Json :=
  (writtenStyles? v).bind fun styles => (styles.get? selector).bind fun record =>
    record.get? property

theorem writtenStyles?_eq_part? (v : Json) : writtenStyles? v = part? "styles" 0 v := by
  cases v <;> rfl

theorem styles_of_ofJson? {v : Json} {e : Extraction} (h : ofJson? v = some e) :
    match writtenStyles? v with
    | none => e.styles = ∅
    | some w => stylesOfJson? w = some e.styles := by
  obtain ⟨-, hstyles, -⟩ := ofJson?_eq_some_iff.1 h
  rw [writtenStyles?_eq_part?]
  cases hv : part? "styles" 0 v with
  | none =>
    rw [hv] at hstyles
    exact (Option.some.inj hstyles).symm
  | some w =>
    rw [hv] at hstyles
    exact hstyles

/-- A property has the value that its last JSON value is read as. -/
theorem value?_of_ofJson? {v : Json} {e : Extraction} (h : ofJson? v = some e)
    (selector property : String) :
    e.value? selector property = (written? v selector property).map .ofJson := by
  have hstyles := styles_of_ofJson? h
  unfold value? written?
  cases hw : writtenStyles? v with
  | none =>
    rw [hw] at hstyles
    rw [hstyles]
    rfl
  | some styles =>
    rw [hw] at hstyles
    have hselector := get?_of_mapOf? hstyles selector
    rw [Option.bind_some]
    cases hs : styles.get? selector with
    | none => simp_all
    | some record =>
      obtain ⟨m, hm, hrecord⟩ : ∃ m, e.styles.get? selector = some m ∧
          some m = mapOf? (fun v => some (.ofJson v)) record := by
        simpa [hs, Option.map_eq_some_iff] using hselector
      have hproperty := get?_of_mapOf? hrecord.symm property
      rw [hm, Option.bind_some, Option.bind_some]
      cases hp : record.get? property <;> cases hq : m.get? property <;> simp_all

/-- **The form of a value decides what it is read as.** A value of one of the two forms of a member
of the `StyleSheet` is read as that member, and every other value as the literal that it is: no
value is refused, and only the order of the members of objects may change. The same holds of the
value of each property in every text that is read as an extraction. So just the list of one name is
read as a member without being the object that members are written as. -/
theorem read_eq_member_iff {text : String} {v : Json} (h : Says text v) :
    ((∀ name, PropertyValue.read text = .ok (.member name) ↔
        v = .object [(memberField, .string name)]) ↔ ∀ name, v ≠ .array [.string name]) ∧
    (∀ name, PropertyValue.read text = .ok (.member name) ↔ NamesMember v name) ∧
    ((∀ name, ¬NamesMember v name) → ∃ l, PropertyValue.read text = .ok (.literal l) ∧
      (v.HasNoRepeats → Reordered v l.json)) ∧
    ∀ text e, read text = .ok e → ∃ v, Outlines text v ∧ ∀ selector property,
      (∀ name, e.value? selector property = some (.member name) ↔
        ∃ w, written? v selector property = some w ∧ NamesMember w name) ∧
      ∀ l, e.value? selector property = some (.literal l) ↔
        ∃ w, written? v selector property = some w ∧ (∀ name, ¬NamesMember w name) ∧
          .ofJson w = l := by
  have hmember : ∀ name, PropertyValue.read text = .ok (.member name) ↔ NamesMember v name := by
    intro name
    rw [read_eq_ofJson h, Except.ok.injEq, ofJson_eq_member]
  refine ⟨?_, hmember, fun hv => ⟨.ofJson v, ?_, reordered_canonical⟩, fun text e he => ?_⟩
  · simp only [hmember]
    constructor
    · rintro hobject name rfl
      cases (hobject name).1 (.inr rfl)
    · intro hlist name
      exact or_iff_left (hlist name)
  · rw [read_eq_ofJson h, ofJson_eq_literal.2 ⟨hv, rfl⟩]
  · obtain ⟨v, hv, hve⟩ := exists_outlines_of_read he
    refine ⟨v, hv, fun selector property => ?_⟩
    simp only [value?_of_ofJson? hve, Option.map_eq_some_iff, ofJson_eq_member, ofJson_eq_literal,
      implies_true, and_self]

/-- The text of an extraction with a list of one name. -/
def hairlineText : String :=
  "\x7b\"styles\":\x7b\"a\":\x7b\"width\":[\"hairlineWidth\"]\x7d\x7d\x7d"

/-- The list is a member by itself and as the value of a property. -/
theorem read_eq_member_iff_hairline :
    PropertyValue.read "[\"hairlineWidth\"]" = .ok (.member "hairlineWidth") ∧
      ∃ e, read hairlineText = .ok e ∧
        e.value? "a" "width" = some (.member "hairlineWidth") := by
  have hsays : Says "[\"hairlineWidth\"]" (.array [.string "hairlineWidth"]) :=
    eq_ok_of_any_beq (by simp [Json.HasNoFloats, Everywhere, ItemsEverywhere]) (by decide +kernel)
  have houtline : Outlines hairlineText (.object [("styles", .object [("a",
      .object [("width", .array [.string "hairlineWidth"])])])]) :=
    eq_ok_of_any_beq (by simp [Json.HasNoFloats, Everywhere, ItemsEverywhere, MembersEverywhere])
      (by decide +kernel)
  obtain ⟨e, hread⟩ : ∃ e, read hairlineText = .ok e := exists_eq_ok_of_isSome (by decide +kernel)
  obtain ⟨-, hmember, -, hvalue⟩ := read_eq_member_iff hsays
  refine ⟨(hmember _).2 (.inr rfl), e, hread, ?_⟩
  obtain ⟨v, hv, hproperty⟩ := hvalue hairlineText e hread
  obtain rfl := Except.ok.inj (houtline.symm.trans hv)
  exact ((hproperty "a" "width").1 "hairlineWidth").2 ⟨_, rfl, .inr rfl⟩

/-- A list is read as a member too, not only the object that members are written as. -/
theorem not_read_eq_member_iff_object :
    ¬∀ text v name, Says text v → v.HasNoRepeats →
      (PropertyValue.read text = .ok (.member name) ↔
        v = .object [(memberField, .string name)]) := by
  intro h
  have hlist : Says "[\"a\"]" (.array [.string "a"]) :=
    eq_ok_of_any_beq (by simp [Json.HasNoFloats, Everywhere, ItemsEverywhere]) (by decide +kernel)
  have hrepeats : (Json.array [.string "a"]).HasNoRepeats := by
    simp [HasNoRepeats, Everywhere, ItemsEverywhere]
  have hobject := (h _ _ "a" hlist hrepeats).1 (PropertyValue.read_eq_ofJson hlist)
  cases hobject

end Extraction

end StyleModule
