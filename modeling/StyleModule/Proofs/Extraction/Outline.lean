import StyleModule.Proofs.Extraction.Decoding
import StyleModule.Proofs.Json.Covering
import StyleModule.Proofs.Json.Yielding

/-!
# The outline of an extraction's text

A text may be read as an extraction although it says no JSON value: members that are not needed are
passed over, and they may be nested too deep to be read or have escapes that stand for nothing. The
outline of a text is the JSON value that it says without such members (`Extraction.Outlines`). Every
text that is read has one, and it decides what is read (`Extraction.exists_outlines_of_read`).
-/

namespace StyleModule

open Json

variable {n : Nat}

theorem PropertyValue.reader_covered (n : Nat) : Covered n (PropertyValue.reader n) := by
  intro s p r hp
  obtain ⟨⟨v, r'⟩, hv, hp⟩ := bind_eq_ok.1 hp
  cases hp
  exact ⟨v, hv⟩

namespace Condition

theorem shape_covered : Covered (n + 1) shape.read := by
  refine Shape.read_covered (fun body s c r hbody hc => ?_) fun _ _ _ _ hbody => by cases hbody
  cases hbody
  obtain ⟨s', hc, hclose⟩ := enclosed_eq_ok hc
  obtain ⟨⟨kind, s₁⟩, hkind, hc⟩ := bind_eq_ok.1 hc
  cases kind with
  | none => cases hc
  | some kind =>
    obtain ⟨⟨argument, s₂⟩, hargument, hc⟩ := bind_eq_ok.1 hc
    cases argument with
    | none => cases hc
    | some argument =>
      cases hc
      have hahead₂ : ∃ vs, Ahead n false s' vs r := ⟨[], ahead_of_closeList hclose⟩
      have hahead₁ := Ahead.of_item? Shape.string_covered hargument hahead₂
      obtain ⟨vs, hvs⟩ := Ahead.of_item? Shape.string_covered hkind hahead₁
      exact ⟨n, vs, rfl, hvs.listBody⟩

end Condition

namespace Extraction

/-! ### The maps of an extraction -/

theorem stylesShape_covered : Covered (maxOpen - 1) stylesShape.read :=
  Shape.mapOf_covered (Shape.mapOf_covered (PropertyValue.reader_covered _))

theorem atRulesShape_covered : Covered (n + 4) atRulesShape.read :=
  Shape.mapOf_covered (Shape.listOf_covered (Shape.listOf_covered Condition.shape_covered))

theorem masksShape_covered : Covered (n + 1) masksShape.read :=
  Shape.mapOf_covered Shape.word_covered

theorem topicsShape_covered : Covered (n + 2) topicsShape.read :=
  Shape.mapOf_covered (Shape.listOf_covered Shape.string_covered)

/-- A member is passed over or it has a value. -/
theorem field_covered {p : Parts} {name : String} {reader : Reader Parts}
    (h : field p name = .ok reader) :
    passedField p = .ok reader ∨ Covered (maxOpen - 1) reader := by
  unfold field at h
  split_ifs at h
  · exact .inr (uniqueField_covered stylesShape_covered h)
  · exact .inr (uniqueField_covered atRulesShape_covered h)
  · exact .inr (uniqueField_covered masksShape_covered h)
  · exact .inr (uniqueField_covered topicsShape_covered h)
  · exact .inl h

/-! ### Outlines -/

/-- Keep a member if its value can be read, and pass over it if not. -/
def outlineMember (ms : List (String × Json)) (name : String) :
    Except Cause (Reader (List (String × Json))) :=
  .ok fun s =>
    match value (maxOpen - 1) s with
    | .ok (v, s) => .ok ((name, v) :: ms, s)
    | .error _ => do
      let (_, s) ← pass s
      return (ms, s)

/-- A value, without the members of the object that cannot be read but can be passed over. -/
def outline : Reader Json := fun s =>
  match dropBlanks s with
  | '\x7b' :: r => do
    let (ms, r) ← enclosed closeObject (membersFrom [] outlineMember r)
    return (.object ms.reverse, r)
  | _ => value maxOpen s

/-- What a text says if the members that cannot be read are left out. -/
def Outlines (text : String) (v : Json) : Prop := outline.run text = .ok v

/-- The members before a place decide the maps that are found before it. -/
theorem outlineMember_simulates (p : Parts) (ms : List (String × Json)) (name : String)
    (reader : Reader Parts) (hms : ms.reverse.foldlM Parts.add? {} = some p)
    (hreader : field p name = .ok reader) :
    ∃ reader', outlineMember ms name = .ok reader' ∧ Simulates (fun _ => True) reader reader'
      fun p ms => ms.reverse.foldlM Parts.add? {} = some p := by
  refine ⟨_, rfl, fun s p' r _ hp' => ?_⟩
  cases hv : value (maxOpen - 1) s with
  | ok found =>
    -- The member is kept, and the maps are found in it as in its value.
    obtain ⟨v, r'⟩ := found
    have hadd := @field_follows p name s v r' hv
    rw [hreader, toOption_ok, Option.bind_some, hp', toOption_ok, eq_comm,
      Option.map_eq_some_iff] at hadd
    obtain ⟨p'', hadd, hr⟩ := hadd
    cases hr
    refine ⟨trivial, (name, v) :: ms, by simp, ?_⟩
    simp [List.foldlM_append, hms, hadd]
  | error f =>
    -- Only a member that is not needed can be there without a value.
    rcases field_covered hreader with hpassed | hcovered
    · cases hpassed
      obtain ⟨⟨u, r'⟩, hpass, hp'⟩ := bind_eq_ok.1 hp'
      cases hp'
      exact ⟨trivial, ms, by simp [hpass], hms⟩
    · obtain ⟨v, hvalue⟩ := hcovered hp'
      rw [hv] at hvalue
      cases hvalue

theorem outline_of_brace {s t : List Char} (hs : dropBlanks s = '\x7b' :: t)
    {ms : List (String × Json)} {r : List Char}
    (hms : enclosed closeObject (membersFrom [] outlineMember t) = .ok (ms, r)) :
    outline s = .ok (.object ms.reverse, r) := by
  simp [outline, hs, hms]

theorem outline_of_ne {s : List Char} (hs : ∀ t, dropBlanks s ≠ '\x7b' :: t) :
    outline s = value maxOpen s := by
  unfold outline
  split
  case h_1 t ht => exact absurd ht (hs t)
  case h_2 => rfl

/-- The maps of a list are items of a list, though each is read in its own way. -/
theorem listBody_of_shape {body : Reader Extraction} (hbody : shape.list? = some body)
    {s r : List Char} {e : Extraction} (he : body s = .ok (e, r)) :
    ∃ vs, listBody true (value (maxOpen - 1)) s = .ok (vs, r) := by
  cases hbody
  obtain ⟨s', he, hclose⟩ := enclosed_eq_ok he
  obtain ⟨⟨styles, s₁⟩, hstyles, he⟩ := bind_eq_ok.1 he
  obtain ⟨⟨atRules, s₂⟩, hatRules, he⟩ := bind_eq_ok.1 he
  obtain ⟨⟨masks, s₃⟩, hmasks, he⟩ := bind_eq_ok.1 he
  obtain ⟨⟨topics, s₄⟩, htopics, he⟩ := bind_eq_ok.1 he
  cases he
  have hahead₄ : ∃ vs, Ahead (maxOpen - 1) false s' vs r := ⟨[], ahead_of_closeList hclose⟩
  have hahead₃ := Ahead.of_item? topicsShape_covered htopics hahead₄
  have hahead₂ := Ahead.of_item? masksShape_covered hmasks hahead₃
  have hahead₁ := Ahead.of_item? atRulesShape_covered hatRules hahead₂
  obtain ⟨vs, hvs⟩ := Ahead.of_item? stylesShape_covered hstyles hahead₁
  exact ⟨vs, hvs.listBody⟩

/-- An extraction that is no object is read from a JSON value. -/
theorem value_of_shape {s r : List Char} {e : Extraction} (hs : ∀ t, dropBlanks s ≠ '\x7b' :: t)
    (he : shape.read s = .ok (e, r)) : ∃ v, value maxOpen s = .ok (v, r) := by
  unfold Shape.read at he
  split at he
  · cases he
  case h_2 c t hc =>
    split_ifs at he with hlist hobject
    · obtain ⟨vs, hvs⟩ := listBody_of_shape rfl he
      exact ⟨.array vs, value_list (hlist ▸ hc) hvs⟩
    · exact absurd (hobject ▸ hc) (hs t)
    · obtain ⟨⟨v, r'⟩, hv, he⟩ := bind_eq_ok.1 he
      cases he

/-- What is read as an extraction is what is made of the outline. -/
theorem outline_simulates :
    Simulates (fun _ => True) shape.read outline fun e v => ofJson? v = some e := by
  intro s e r _ he
  refine ⟨trivial, ?_⟩
  by_cases hs : ∃ t, dropBlanks s = '\x7b' :: t
  · obtain ⟨t, hs⟩ := hs
    have hmembers : Simulates (fun _ => True) (membersFrom {} field) (membersFrom [] outlineMember)
        fun p ms => ms.reverse.foldlM Parts.add? {} = some p :=
      Simulates.membersFrom downward_true outlineMember_simulates rfl
    have hparts : ∀ (p : Parts) (ms : List (String × Json)),
        ms.reverse.foldlM Parts.add? {} = some p →
        ofJson? (.object ms.reverse) = some (ofParts p) := by
      intro p ms hms
      rw [ofJson?, hms, Option.map_some]
    have hbody := hmembers.map_left (f := ofParts)
      (S := fun e ms => ofJson? (.object ms.reverse) = some e) hparts
    rw [Shape.read_object rfl hs] at he
    obtain ⟨-, ms, hms, hmse⟩ := hbody.enclosed downward_true length_le_of_closeObject trivial he
    exact ⟨.object ms.reverse, outline_of_brace hs hms, hmse⟩
  · rw [not_exists] at hs
    obtain ⟨v, hv⟩ := value_of_shape hs he
    obtain ⟨hve, -⟩ := shape_follows.eq_some hv he
    exact ⟨v, (outline_of_ne hs).trans hv, hve⟩

/-- **Every text that is read has an outline**, and what is read is what is made of the outline. -/
theorem exists_outlines_of_read {text : String} {e : Extraction} (h : read text = .ok e) :
    ∃ v, Outlines text v ∧ ofJson? v = some e := by
  obtain ⟨r, hread, hr⟩ := run_eq_ok.1 h
  obtain ⟨-, v, hv, hve⟩ := outline_simulates trivial hread
  exact ⟨v, run_eq_ok.2 ⟨r, hv, hr⟩, hve⟩

theorem outlineMember_yields (ms : List (String × Json)) (name : String)
    (reader : Reader (List (String × Json))) (hreader : outlineMember ms name = .ok reader)
    (hms : ∀ m ∈ ms, m.2.depth ≤ maxOpen - 1) :
    Yields reader fun ms => ∀ m ∈ ms, m.2.depth ≤ maxOpen - 1 := by
  cases hreader
  intro s ms' r h
  cases hv : value (maxOpen - 1) s with
  | ok found =>
    obtain ⟨v, r'⟩ := found
    obtain ⟨rfl, -⟩ : (name, v) :: ms = ms' ∧ r' = r := by simpa [hv] using h
    exact List.forall_mem_cons.2 ⟨value_yields _ hv, hms⟩
  | error f =>
    obtain ⟨u, hpass⟩ : ∃ u, pass s = .ok (u, r) ∧ ms = ms' := by
      simpa [hv, bind_eq_ok] using h
    exact hpass.2 ▸ hms

/-- No outline is nested deeper than a value that can be read. -/
theorem outline_yields : Yields outline fun v => v.depth ≤ maxOpen := by
  intro s v r hv
  by_cases hs : ∃ t, dropBlanks s = '\x7b' :: t
  · obtain ⟨t, hs⟩ := hs
    simp only [outline, hs] at hv
    obtain ⟨⟨ms, r'⟩, hms, hv⟩ := bind_eq_ok.1 hv
    cases hv
    have hmembers := membersFrom_yields outlineMember_yields (List.forall_mem_nil _)
    have hdepth := hmembers.enclosed hms
    exact depth_object_le_iff.2 fun m hm => hdepth m (List.mem_reverse.1 hm)
  · rw [not_exists] at hs
    rw [outline_of_ne hs] at hv
    exact value_yields maxOpen hv

end Extraction

end StyleModule
