import StyleModule.Extraction.Reader
import StyleModule.Proofs.PropertyValue.Decoding

/-!
# What extractions are read as

`Extraction.ofJson?` says what is made of a JSON value where an extraction is expected, in terms of
the value alone, and `Extraction.toOption_read` that this is what is read from any text that says
the value.
-/

namespace StyleModule

open Json

variable {n : Nat}

namespace Condition

/-- A condition is a list of two strings. -/
def ofJson? : Json → Option Condition
  | .array [.string kind, .string argument] => some ⟨kind, argument⟩
  | _ => none

theorem shape_follows : Follows n shape.read ofJson? := by
  refine Shape.read_follows (fun m s vs r hm hvs => ?_) (fun _ _ _ _ _ _ => rfl) fun v hv => ?_
  · obtain ⟨s₁, hkind, hs₁⟩ := (ahead_of_listBody hvs).item (k := 0) Shape.string_follows
    obtain ⟨s₂, hargument, hs₂⟩ := hs₁.item Shape.string_follows
    have hclose := hs₂.close
    simp only [shape, Option.bind_some, toOption_enclosed, toOption_bind, hkind]
    rcases vs with _ | ⟨v, _ | ⟨w, _ | ⟨x, vs⟩⟩⟩
    · rfl
    · cases v <;> simp_all [present?, string?, ofJson?, tooFew]
    · cases v <;> simp_all [present?, string?, ofJson?, tooFew]
      cases w <;> simp_all
    · cases v <;> simp_all [present?, string?, ofJson?, tooFew]
      cases w <;> simp_all
  · cases hv using IsScalar.cases <;> rfl

end Condition

namespace Extraction

/-- The map of declarations. -/
def stylesOfJson? : Json → Option (OrderedMap StyleRecord) :=
  mapOf? (mapOf? fun v => some (.ofJson v))

/-- The map of conditions. -/
def atRulesOfJson? : Json → Option (OrderedMap (List (List Condition))) :=
  mapOf? (listOf? (listOf? Condition.ofJson?))

/-- The map of masks. -/
def masksOfJson? : Json → Option (OrderedMap UInt64) := mapOf? word?

/-- The map of topics. -/
def topicsOfJson? : Json → Option (OrderedMap (List String)) := mapOf? (listOf? string?)

/-- Put what a member says with what those before it said. A map may be given once. -/
def Parts.add? (p : Parts) (m : String × Json) : Option Parts :=
  if m.1 = "styles" then
    if p.styles.isSome then none else (stylesOfJson? m.2).map fun a => { p with styles := some a }
  else if m.1 = "atRules" then
    if p.atRules.isSome then none
    else (atRulesOfJson? m.2).map fun a => { p with atRules := some a }
  else if m.1 = "masks" then
    if p.masks.isSome then none else (masksOfJson? m.2).map fun a => { p with masks := some a }
  else if m.1 = "topics" then
    if p.topics.isSome then none else (topicsOfJson? m.2).map fun a => { p with topics := some a }
  else some p

/-- The maps of a list, in the order of their fields. -/
def partsOfItems? (vs : List Json) : Option Parts := do
  let styles ← present? stylesOfJson? vs[0]?
  let atRules ← present? atRulesOfJson? vs[1]?
  let masks ← present? masksOfJson? vs[2]?
  let topics ← present? topicsOfJson? vs[3]?
  if vs.drop 4 = [] then some ⟨styles, atRules, masks, topics⟩ else none

/-- What is made of a JSON value where an extraction is expected. -/
def ofJson? : Json → Option Extraction
  | .object ms => (ms.foldlM Parts.add? {}).map ofParts
  | .array vs => (partsOfItems? vs).map ofParts
  | _ => none

theorem stylesShape_follows : Follows (maxOpen - 1) stylesShape.read stylesOfJson? :=
  Shape.mapOf_follows (Shape.mapOf_follows PropertyValue.reader_follows)

theorem atRulesShape_follows : Follows (n + 3) atRulesShape.read atRulesOfJson? :=
  Shape.mapOf_follows (Shape.listOf_follows (Shape.listOf_follows Condition.shape_follows))

theorem masksShape_follows : Follows (n + 1) masksShape.read masksOfJson? :=
  Shape.mapOf_follows Shape.word_follows

theorem topicsShape_follows : Follows (n + 2) topicsShape.read topicsOfJson? :=
  Shape.mapOf_follows (Shape.listOf_follows Shape.string_follows)

theorem field_follows : FollowsMember (maxOpen - 1) field Parts.add? := by
  intro p k s v r h
  simp only [field, Parts.add?]
  split_ifs with hstyles hp hatRules hp hmasks hp htopics hp
  · rw [uniqueField_follows stylesShape_follows k _ _ h, if_pos hp]
  · rw [uniqueField_follows stylesShape_follows k _ _ h, if_neg hp]
  · rw [uniqueField_follows atRulesShape_follows k _ _ h, if_pos hp]
  · rw [uniqueField_follows atRulesShape_follows k _ _ h, if_neg hp]
  · rw [uniqueField_follows masksShape_follows k _ _ h, if_pos hp]
  · rw [uniqueField_follows masksShape_follows k _ _ h, if_neg hp]
  · rw [uniqueField_follows topicsShape_follows k _ _ h, if_pos hp]
  · rw [uniqueField_follows topicsShape_follows k _ _ h, if_neg hp]
  · rw [passedField_follows p h]
    rfl

/-- An extraction is read as its JSON value says. -/
theorem shape_follows : Follows maxOpen shape.read ofJson? := by
  refine Shape.read_follows (fun m s vs r hm hvs => ?_) (fun m s ms r hm hms => ?_) fun v hv => ?_
  · cases hm
    obtain ⟨s₁, hstyles, hs₁⟩ := (ahead_of_listBody hvs).item (k := 0) stylesShape_follows
    obtain ⟨s₂, hatRules, hs₂⟩ := hs₁.item atRulesShape_follows
    obtain ⟨s₃, hmasks, hs₃⟩ := hs₂.item masksShape_follows
    obtain ⟨s₄, htopics, hs₄⟩ := hs₃.item topicsShape_follows
    simp only [shape, Shape.fields, Option.bind_some, toOption_enclosed, toOption_bind, hstyles,
      ofJson?, partsOfItems?]
    cases present? stylesOfJson? vs[0]? with
    | none => rfl
    | some styles =>
    simp only [Option.map_some, Option.bind_some, hatRules, Option.bind_eq_bind]
    cases present? atRulesOfJson? vs[0 + 1]? with
    | none => rfl
    | some atRules =>
    simp only [Option.map_some, Option.bind_some, hmasks]
    cases present? masksOfJson? vs[0 + 1 + 1]? with
    | none => rfl
    | some masks =>
    simp only [Option.map_some, Option.bind_some, htopics]
    cases present? topicsOfJson? vs[0 + 1 + 1 + 1]? with
    | none => rfl
    | some topics =>
    simp only [Option.map_some, Option.bind_some, pure_eq_ok, toOption_ok, hs₄.close]
    split_ifs <;> rfl
  · cases hm
    refine (toOption_enclosed_bind (f := fun p => some (ofParts p)) fun p s => rfl).trans ?_
    rw [field_follows.object hms {}]
    simp only [ofJson?]
    cases ms.foldlM Parts.add? {} <;> rfl
  · cases hv using IsScalar.cases <;> rfl

theorem toOption_read {text : String} {v : Json} (h : Says text v) :
    (read text).toOption = ofJson? v :=
  shape_follows.run h

end Extraction

end StyleModule
