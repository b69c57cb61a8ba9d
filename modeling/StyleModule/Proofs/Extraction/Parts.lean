import StyleModule.Proofs.Extraction.Decoding
import StyleModule.Proofs.Json.Members

/-!
# The parts of an extraction

An extraction is read part by part: each of its maps is read from its own member or item, whatever
the others are (`Extraction.ofJson?_eq_some_iff`). A list has its parts by place; an object has them
by name, in any order, and each at most once.
-/

namespace StyleModule.Extraction

open Json

variable {α : Type}

/-! ### One part -/

/-- What is made of a part and of the next member. -/
def addPart (name : String) (decode : Json → Option α) (found : Option α) (m : String × Json) :
    Option (Option α) :=
  if m.1 = name then if found.isSome then none else (decode m.2).map some else some found

theorem foldlM_addPart_some {name : String} {decode : Json → Option α} (a : α)
    (ms : List (String × Json)) :
    ms.foldlM (addPart name decode) (some a) =
      if name ∈ ms.map Prod.fst then none else some (some a) := by
  induction ms with
  | nil => rfl
  | cons m ms ih =>
    by_cases h : m.1 = name
    · simp [addPart, h]
    · simp only [List.foldlM_cons, addPart, h, ↓reduceIte, Option.bind_eq_bind, Option.bind_some,
        ih, List.map_cons, List.mem_cons, Ne.symm h, false_or]

/-- A part is made of the only member of its name, if there is one. -/
theorem foldlM_addPart_none {name : String} {decode : Json → Option α}
    (ms : List (String × Json)) :
    ms.foldlM (addPart name decode) none =
      if (ms.map Prod.fst).count name ≤ 1 then present? decode (member? ms name) else none := by
  induction ms with
  | nil => rfl
  | cons m ms ih =>
    by_cases h : m.1 = name
    · -- The name is found here, so it must not come again.
      have hcount : ((m :: ms).map Prod.fst).count name ≤ 1 ↔ name ∉ ms.map Prod.fst := by
        rw [List.map_cons, h, List.count_cons_self, Nat.succ_le_succ_iff, Nat.le_zero,
          List.count_eq_zero]
      simp only [List.foldlM_cons, addPart, h, ↓reduceIte, Option.isSome_none, Bool.false_eq_true,
        Option.bind_eq_bind, hcount, member?_cons]
      by_cases hmem : name ∈ ms.map Prod.fst
      · cases decode m.2 <;> simp [foldlM_addPart_some, hmem]
      · rw [member?_eq_none_iff.2 hmem]
        cases hm : decode m.2 <;> simp [foldlM_addPart_some, hmem, present?, hm]
    · have hcount : ((m :: ms).map Prod.fst).count name = (ms.map Prod.fst).count name := by
        rw [List.map_cons, List.count_cons_of_ne h]
      simp only [List.foldlM_cons, addPart, h, ↓reduceIte, Option.bind_eq_bind, Option.bind_some,
        ih, hcount, member?_cons, Option.or_none]

/-- The parts of an object are found apart from each other. -/
theorem foldlM_add? (ms : List (String × Json)) (p : Parts) :
    ms.foldlM Parts.add? p =
      (ms.foldlM (addPart "styles" stylesOfJson?) p.styles).bind fun styles =>
      (ms.foldlM (addPart "atRules" atRulesOfJson?) p.atRules).bind fun atRules =>
      (ms.foldlM (addPart "masks" masksOfJson?) p.masks).bind fun masks =>
      (ms.foldlM (addPart "topics" topicsOfJson?) p.topics).map fun topics =>
        ⟨styles, atRules, masks, topics⟩ := by
  induction ms generalizing p with
  | nil => rfl
  | cons m ms ih =>
    obtain ⟨name, v⟩ := m
    obtain ⟨styles, atRules, masks, topics⟩ := p
    -- The member is for one of the parts, or for none.
    by_cases hstyles : name = "styles"
    · subst hstyles
      cases styles <;> cases hv : stylesOfJson? v <;> simp [Parts.add?, addPart, hv, ih]
    by_cases hatRules : name = "atRules"
    · subst hatRules
      cases atRules <;> cases hv : atRulesOfJson? v <;> simp [Parts.add?, addPart, hv, ih]
    by_cases hmasks : name = "masks"
    · subst hmasks
      cases masks <;> cases hv : masksOfJson? v <;> simp [Parts.add?, addPart, hv, ih]
    by_cases htopics : name = "topics"
    · subst htopics
      cases topics <;> cases hv : topicsOfJson? v <;> simp [Parts.add?, addPart, hv, ih]
    simp [Parts.add?, addPart, hstyles, hatRules, hmasks, htopics, ih]

/-! ### All parts -/

/-- What a JSON value says for a part: by its name in an object, by its place in a list. -/
def part? (name : String) (place : Nat) : Json → Option Json
  | .array vs => vs[place]?
  | v => v.get? name

/-- The names of the parts, by their places. -/
def partNames : List String := ["styles", "atRules", "masks", "topics"]

/-- A value is an object that lists no part twice, or a list of no more parts than there are. -/
def HasParts : Json → Prop
  | .object ms => ∀ name ∈ partNames, (ms.map Prod.fst).count name ≤ 1
  | .array vs => vs.length ≤ partNames.length
  | _ => False

/-- What is made of a part. A missing one is empty. -/
def mapOfPart? (decode : Json → Option (OrderedMap α)) : Option Json → Option (OrderedMap α)
  | none => some ∅
  | some v => decode v

theorem mapOfPart?_eq (decode : Json → Option (OrderedMap α)) (v : Option Json) :
    mapOfPart? decode v = (present? decode v).map fun m => m.getD ∅ := by
  cases v with
  | none => rfl
  | some v => cases h : decode v <;> simp [mapOfPart?, present?, h]

theorem map_ite_eq_some {β : Type} {c : Prop} [Decidable c] {o : Option α} {f : α → β} {b : β} :
    (if c then o else none).map f = some b ↔ c ∧ o.map f = some b := by
  split_ifs with h <;> simp [h]

theorem map_ofParts {styles : Option (Option (OrderedMap StyleRecord))}
    {atRules : Option (Option (OrderedMap (List (List Condition))))}
    {masks : Option (Option (OrderedMap UInt64))}
    {topics : Option (Option (OrderedMap (List String)))} {e : Extraction} :
    ((styles.bind fun styles => atRules.bind fun atRules => masks.bind fun masks =>
      topics.map fun topics => (⟨styles, atRules, masks, topics⟩ : Parts)).map ofParts = some e) ↔
    styles.map (fun m => m.getD ∅) = some e.styles ∧
      atRules.map (fun m => m.getD ∅) = some e.atRules ∧
      masks.map (fun m => m.getD ∅) = some e.masks ∧
      topics.map (fun m => m.getD ∅) = some e.topics := by
  obtain ⟨_, _, _, _⟩ := e
  cases styles <;> cases atRules <;> cases masks <;> cases topics <;> simp [ofParts]

/-- Each map is made of its own part. -/
theorem ofJson?_eq_some_iff {v : Json} {e : Extraction} :
    ofJson? v = some e ↔ HasParts v ∧
      mapOfPart? stylesOfJson? (part? "styles" 0 v) = some e.styles ∧
      mapOfPart? atRulesOfJson? (part? "atRules" 1 v) = some e.atRules ∧
      mapOfPart? masksOfJson? (part? "masks" 2 v) = some e.masks ∧
      mapOfPart? topicsOfJson? (part? "topics" 3 v) = some e.topics := by
  simp only [mapOfPart?_eq]
  cases v with
  | object ms =>
    simp only [ofJson?, foldlM_add?, map_ofParts, foldlM_addPart_none, map_ite_eq_some, HasParts,
      partNames, part?, Json.get?, List.forall_mem_cons]
    tauto
  | array vs =>
    have hlength : vs.drop 4 = [] ↔ vs.length ≤ partNames.length := List.drop_eq_nil_iff
    have hparts : partsOfItems? vs = if vs.drop 4 = [] then
        ((present? stylesOfJson? vs[0]?).bind fun styles =>
          (present? atRulesOfJson? vs[1]?).bind fun atRules =>
          (present? masksOfJson? vs[2]?).bind fun masks =>
          (present? topicsOfJson? vs[3]?).map fun topics => ⟨styles, atRules, masks, topics⟩)
        else none := by
      unfold partsOfItems?
      split_ifs
      · simp only [Option.map_eq_bind]
        rfl
      · simp
    rw [ofJson?, hparts, map_ite_eq_some, map_ofParts, hlength]
    rfl
  | _ => simp [ofJson?, HasParts]

end StyleModule.Extraction
