import StyleModule.Proofs.Extraction.Properties
import StyleModule.Proofs.Extraction.RoundTrip

/-!
# Extractions that were read

Not every extraction can be read from a text. What is read is made of the outline of the text
(`Extraction.exists_outlines_of_read`), so that no literal is a list of one string, and none is
nested too deep to be read again. What is left of the values that are not read back are objects of
the form of a member that were read from an object with a repeated name. These become members when
they are written and read again (`Extraction.read_compact_of_read`).
-/

namespace StyleModule

open Json PropertyValue

namespace PropertyValue

/-- Apart from the list of a name, only an object that names a member is not read back as it is. -/
theorem settled_of_ne {p : PropertyValue}
    (hp : ∀ l, p = .literal l → ∀ name, l.json ≠ .array [.string name]) :
    (∀ name, p.settled = .member name ↔ p = .member name ∨
      ∃ l, p = .literal l ∧ l.json = .object [(memberField, .string name)]) ∧
    ∀ l, p.settled = .literal l ↔ p = .literal l ∧
      ∀ name, l.json ≠ .object [(memberField, .string name)] := by
  cases p with
  | member name => simp [settled_member]
  | literal l =>
    have hforms : ∀ name, NamesMember l.json name ↔
        l.json = .object [(memberField, .string name)] :=
      fun name => or_iff_left (hp l rfl name)
    simp only [settled, toJson, ofJson_eq_member, ofJson_eq_literal, hforms, Literal.ofJson_json]
    constructor
    · intro name
      simp
    · intro l'
      constructor
      · rintro ⟨hl, rfl⟩
        exact ⟨rfl, hl⟩
      · rintro ⟨hl, hname⟩
        cases hl
        exact ⟨hname, rfl⟩

end PropertyValue

namespace Extraction

/-! ### Values in the text -/

variable {v w : Json}

theorem isPart_of_get? (name : String) (h : v.get? name = some w) : IsPart w v := by
  cases v with
  | object ms =>
    obtain ⟨m, hm, rfl⟩ := Option.map_eq_some_iff.1 h
    exact .member (List.mem_reverse.1 (List.mem_of_find?_eq_some hm))
  | _ => cases h

/-- The value of a property stands in the record, and this in the declarations. -/
theorem isPart_of_written? {selector property : String}
    (h : written? v selector property = some w) :
    ∃ styles record, IsPart styles v ∧ IsPart record styles ∧ IsPart w record := by
  obtain ⟨styles, hstyles, h⟩ := Option.bind_eq_some_iff.1 h
  obtain ⟨record, hrecord, h⟩ := Option.bind_eq_some_iff.1 h
  refine ⟨styles, record, ?_, isPart_of_get? selector hrecord, isPart_of_get? property h⟩
  cases v with
  | array vs => exact .item (List.mem_of_getElem? hstyles)
  | _ => exact isPart_of_get? "styles" hstyles

/-- Every literal is read from a value in a record that has not the form of a member. -/
theorem everyLiteral_of_ofJson? {e : Extraction} (h : ofJson? v = some e) :
    e.EveryLiteral fun l => ∃ w,
      (∃ styles record, IsPart styles v ∧ IsPart record styles ∧ IsPart w record) ∧
      (∀ name, ¬NamesMember w name) ∧ w.canonical = l := by
  intro s hs d hd l hl
  have hvalue := value?_of_mem hs hd
  rw [value?_of_ofJson? h, Option.map_eq_some_iff] at hvalue
  obtain ⟨w, hw, hwd⟩ := hvalue
  rw [hl, ofJson_eq_literal] at hwd
  obtain ⟨hforms, rfl⟩ := hwd
  exact ⟨w, isPart_of_written? hw, hforms, rfl⟩

theorem everyLiteral_of_everywhere {e : Extraction} (h : ofJson? v = some e) {p : Json → Prop}
    (hp : v.Everywhere p) : e.EveryLiteral fun l =>
      ∃ w, w.Everywhere p ∧ (∀ name, ¬NamesMember w name) ∧ w.canonical = l := by
  intro s hs d hd l hl
  obtain ⟨w, ⟨styles, record, hstyles, hrecord, hw⟩, hforms, hwl⟩ :=
    everyLiteral_of_ofJson? h s hs d hd l hl
  exact ⟨w, hw.everywhere (hrecord.everywhere (hstyles.everywhere hp)), hforms, hwl⟩

/-- A literal that was read is not nested deeper than its text, and it is not the list of a name. -/
theorem everyLiteral_of_depth {e : Extraction} (h : ofJson? v = some e) (hv : v.depth ≤ maxOpen) :
    e.EveryLiteral fun l => l.depth ≤ maxOpen - 3 ∧ ∀ name, l ≠ .array [.string name] := by
  intro s hs d hd l hl
  obtain ⟨w, ⟨styles, record, hstyles, hrecord, hw⟩, hforms, hwl⟩ :=
    everyLiteral_of_ofJson? h s hs d hd l hl
  have hdepth : w.depth ≤ maxOpen - 3 := hw.depth_le (hrecord.depth_le (hstyles.depth_le hv))
  refine ⟨hwl ▸ depth_canonical_le hdepth, fun name hname => ?_⟩
  exact hforms name (.inr (eq_singleton_of_canonical (hwl.trans hname)))

/-- **What was read is read back**, but for the literals that are the object of a member: each of
them becomes that member. The keys keep their order, and every other value stays what it is. Without
repeated names in the text there are no such literals. -/
theorem read_compact_of_read {text : String} {e : Extraction} (h : read text = .ok e) :
    ∃ v, Outlines text v ∧
      (v.HasOnlyIntegers → read e.toJson.compact = .ok e.settled) ∧
      (∀ s ∈ e.styles.entries, ∀ d ∈ s.2.entries,
        (∀ name, d.2.settled = .member name ↔ d.2 = .member name ∨
          ∃ l, d.2 = .literal l ∧ l.json = .object [(memberField, .string name)]) ∧
        ∀ l, d.2.settled = .literal l ↔ d.2 = .literal l ∧
          ∀ name, l.json ≠ .object [(memberField, .string name)]) ∧
      (e.settled = e ↔
        e.EveryLiteral fun l => ∀ name, l ≠ .object [(memberField, .string name)]) ∧
      (v.HasNoRepeats → e.settled = e) := by
  obtain ⟨v, hv, hve⟩ := exists_outlines_of_read h
  have hread := everyLiteral_of_depth hve (outline_yields.run hv)
  refine ⟨v, hv, fun hints => ?_, fun s hs d hd => ?_, ?_, fun hrepeats => ?_⟩
  · -- The numbers of a literal are numbers of the text.
    refine read_compact e ?_ fun s hs d hd l hl => (hread s hs d hd l hl).1
    intro s hs d hd l hl
    obtain ⟨w, hw, -, hwl⟩ := everyLiteral_of_everywhere hve hints s hs d hd l hl
    rw [← hwl]
    exact everywhere_canonical (fun _ => trivial) (fun _ => trivial) hw
  · exact settled_of_ne fun l hl => (hread s hs d hd l hl).2
  · rw [settled_eq_self_iff]
    constructor
    · intro hforms s hs d hd l hl name hname
      exact hforms s hs d hd l hl name (.inl hname)
    · rintro hobject s hs d hd l hl name (hname | hname)
      · exact hobject s hs d hd l hl name hname
      · exact (hread s hs d hd l hl).2 name hname
  · -- Without repeats the value in the text has the form of a member if the literal has it.
    rw [settled_eq_self_iff]
    intro s hs d hd l hl name hname
    obtain ⟨w, hw, hforms, hwl⟩ := everyLiteral_of_everywhere hve hrepeats s hs d hd l hl
    have hreordered : Reordered w l.json := hwl ▸ reordered_canonical hw
    rcases hname with hname | hname
    · exact hforms name (.inl (hname ▸ hreordered).eq_singleton)
    · exact hforms name (.inr (eq_singleton_of_canonical (hwl.trans hname)))

/-- A text with two offsets, and with a note that is half a character. -/
def offsetsText : String :=
  "\x7b\"styles\":\x7b\"box\":\x7b\"shadow\":[-1,2]\x7d\x7d,\"note\":\"\\ud800\"\x7d"

/-- Offsets are read back, also if they come from a text that says no JSON value. -/
theorem read_compact_of_read_offsets :
    (∀ v, ¬Says offsetsText v) ∧ ∃ e, read offsetsText = .ok e ∧ read e.toJson.compact = .ok e := by
  have hnone : (Reader.run (value maxOpen) offsetsText).toOption = none := by decide +kernel
  obtain ⟨e, hread⟩ : ∃ e, read offsetsText = .ok e := exists_eq_ok_of_isSome (by decide +kernel)
  have houtline : Outlines offsetsText (.object
      [("styles", .object [("box", .object [("shadow", .array [.int (-1), .int 2])])])]) :=
    eq_ok_of_any_beq (by simp [Json.HasNoFloats, Everywhere, ItemsEverywhere, MembersEverywhere])
      (by decide +kernel)
  constructor
  · intro v hv
    rw [show Reader.run (value maxOpen) offsetsText = .ok v from hv] at hnone
    cases hnone
  · obtain ⟨v, hv, hcompact, -, -, hrepeats⟩ := read_compact_of_read hread
    obtain rfl := Except.ok.inj (houtline.symm.trans hv)
    have hwhole := hcompact (by
      simp [HasOnlyIntegers, FitsWord, Everywhere, ItemsEverywhere, MembersEverywhere])
    have hsettled := hrepeats (by
      simp [HasNoRepeats, Everywhere, ItemsEverywhere, MembersEverywhere])
    exact ⟨e, hread, by rw [hwhole, hsettled]⟩

/-- An object that names two members is read as a literal, and then as one of them. -/
theorem exists_read_compact_ne_self :
    ∃ text v e, Says text v ∧ v.HasOnlyIntegers ∧ read text = .ok e ∧
      read e.toJson.compact ≠ .ok e := by
  have hsays : Says
      "[\x7b\"box\":\x7b\"shadow\":\x7b\"styleSheet\":\"x\",\"styleSheet\":\"y\"\x7d\x7d\x7d]"
      (.array [.object [("box", .object [("shadow",
        .object [("styleSheet", .string "x"), ("styleSheet", .string "y")])])]]) :=
    eq_ok_of_any_beq (by simp [Json.HasNoFloats, Everywhere, ItemsEverywhere, MembersEverywhere])
      (by decide +kernel)
  refine ⟨_, _, ofLiteral (.ofJson (.object [("styleSheet", .string "y")])), hsays, ?_,
    toOption_eq_some.1 ((toOption_read hsays).trans rfl), ?_⟩
  · simp [HasOnlyIntegers, Everywhere, ItemsEverywhere, MembersEverywhere]
  · have hform : (Literal.ofJson (.object [("styleSheet", .string "y")])).json =
        .object [(memberField, .string "y")] := rfl
    rw [read_compact, Ne, Except.ok.injEq, settled_eq_self_iff] <;>
      rw [everyLiteral_ofLiteral, hform]
    · exact fun h => h "y" (.inl rfl)
    · simp [HasOnlyIntegers, Everywhere, MembersEverywhere]
    · simp [depth, membersDepth, maxOpen]

end Extraction

end StyleModule
