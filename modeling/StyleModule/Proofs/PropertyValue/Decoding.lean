import StyleModule.Proofs.Json.Decoding
import StyleModule.PropertyValue.Reader

/-!
# What property values are read as

A property value is read as whatever its JSON value has the form of
(`PropertyValue.reader_follows`). The name of a member can also be read by itself, and the form of a
member is just what can be read so (`PropertyValue.memberNameShape_follows`): a value is a member if
it can be one, and otherwise a literal.
-/

namespace StyleModule.PropertyValue

open Json

variable {n : Nat}

theorem reader_follows : Follows n (reader n) fun v => some (ofJson v) := by
  intro s v r h
  simp [reader, h]

/-- What is made of a member of an object that names a member of the `StyleSheet`. -/
def memberName (found : Option String) (m : String × Json) : Option (Option String) :=
  if m.1 = memberField then if found.isSome then none else m.2.string?.map some else none

theorem memberNameField_follows : FollowsMember n memberNameField memberName := by
  intro found k s v r h
  simp only [memberNameField, memberName]
  split_ifs with hk hfound
  · rw [uniqueField_follows Shape.string_follows k found.isSome some h, if_pos hfound]
  · rw [uniqueField_follows Shape.string_follows k found.isSome some h, if_neg hfound]
  · rfl

/-- An object names a member if that is all it says. -/
theorem foldlM_memberName (ms : List (String × Json)) :
    ((ms.foldlM memberName none).bind id) = memberName? (.object ms) := by
  rcases ms with _ | ⟨⟨k, v⟩, _ | ⟨m, ms⟩⟩
  · rfl
  · cases v <;> simp [memberName, memberName?, string?]
    split_ifs <;> rfl
  · have hfirst : memberName none (k, v) = none ∨
        ∃ name, memberName none (k, v) = some (some name) := by
      simp only [memberName]
      cases v.string? <;> by_cases hk : k = memberField <;> simp [hk]
    have hsecond : ∀ name, memberName (some name) m = none := by simp [memberName]
    rcases hfirst with hfirst | ⟨name, hfirst⟩
    · simp [hfirst, memberName?]
    · simp [hfirst, hsecond, memberName?]

/-- A value has the form of a member if the name of one can be read from it. -/
theorem memberNameShape_follows : Follows n memberNameShape.read memberName? := by
  refine Shape.read_follows (fun m s vs r hm hvs => ?_) (fun m s ms r hm hms => ?_) fun v hv => ?_
  · obtain ⟨s', hitem, hs'⟩ := (ahead_of_listBody hvs).item (k := 0) Shape.string_follows
    have hclose := hs'.close
    simp only [memberNameShape, Shape.fields, Option.bind_some, toOption_enclosed, toOption_bind,
      hitem]
    rcases vs with _ | ⟨v, _ | ⟨w, vs⟩⟩
    · rfl
    · cases v <;> simp_all [present?, string?, memberName?]
    · cases v <;> simp_all [present?, string?, memberName?]
  · rw [← foldlM_memberName]
    refine (toOption_enclosed_bind (f := id) fun name s => ?_).trans ?_
    · cases name <;> rfl
    · rw [memberNameField_follows.object hms none]
      cases ms.foldlM memberName none <;> rfl
  · cases hv using IsScalar.cases <;> rfl

/-! ### The form of a member -/

/-- A value has one of the two forms that are read as a member of the `StyleSheet`: an object with
the name as its only member, or a list of the name alone. -/
def NamesMember (v : Json) (name : String) : Prop :=
  v = .object [(memberField, .string name)] ∨ v = .array [.string name]

theorem memberName?_eq_some {v : Json} {name : String} :
    memberName? v = some name ↔ NamesMember v name := by
  constructor
  · intro h
    unfold memberName? at h
    split at h
    · split_ifs at h with hfield
      cases h
      exact .inl (by rw [hfield])
    · cases h
      exact .inr rfl
    · cases h
  · rintro (rfl | rfl)
    · simp [memberName?]
    · rfl

theorem ofJson_eq_member {v : Json} {name : String} :
    ofJson v = .member name ↔ NamesMember v name := by
  rw [← memberName?_eq_some, ofJson]
  cases memberName? v <;> simp

theorem ofJson_eq_literal {v : Json} {l : Literal} :
    ofJson v = .literal l ↔ (∀ name, ¬NamesMember v name) ∧ .ofJson v = l := by
  simp only [← memberName?_eq_some, ofJson]
  cases memberName? v <;> simp

/-- The text of a property value is read as its JSON value says. -/
theorem read_eq_ofJson {text : String} {v : Json} (h : Says text v) : read text = .ok (ofJson v) :=
  toOption_eq_some.1 (reader_follows.run h)

end StyleModule.PropertyValue
