import StyleModule.Proofs.Json.Decoding

/-!
# Typed readers read JSON values

A typed reader takes no text that says no JSON value (`Json.Covered`), unless it passes over a part
of it.

The items of a list may be read one by one. That they are items of a list can be told once it is
closed (`Json.Ahead.of_item?`).
-/

namespace StyleModule.Json

variable {α β σ : Type} {n : Nat}

/-- Where a reader succeeds there is a value, with the same rest. -/
def Covered (n : Nat) (reader : Reader α) : Prop :=
  ∀ ⦃s a r⦄, reader s = .ok (a, r) → ∃ v, value n s = .ok (v, r)

theorem Covered.simulates {reader : Reader α} (h : Covered n reader) :
    Simulates (fun _ => True) reader (value n) fun _ _ => True := by
  intro s a r _ ha
  obtain ⟨v, hv⟩ := h ha
  exact ⟨trivial, v, hv, trivial⟩

theorem Covered.map {reader : Reader α} (h : Covered n reader) (f : α → β) :
    Covered n fun s => do let (a, r) ← reader s; return (f a, r) := by
  intro s b r hb
  obtain ⟨⟨a, r'⟩, ha, hb⟩ := bind_eq_ok.1 hb
  cases hb
  exact h ha

/-- An object is covered if the values of its members are. -/
theorem Covered.object {member : σ → String → Except Cause (Reader σ)}
    (hmember : ∀ state k reader, member state k = .ok reader → Covered n reader)
    {start last : σ} {s r : List Char}
    (h : enclosed closeObject (membersFrom start member s) = .ok (last, r)) :
    ∃ ms, enclosed closeObject (objectBody (value n) s) = .ok (ms, r) := by
  have hmembers : Simulates (fun _ => True) (membersFrom start member)
      (membersFrom [] (keepMember (value n))) fun _ _ => True := by
    refine Simulates.membersFrom downward_true (fun state ms k reader _ hreader => ?_) trivial
    refine ⟨_, rfl, ?_⟩
    have hvalue := (hmember state k reader hreader).simulates
    exact hvalue.map_right (g := fun v => (k, v) :: ms) fun _ _ _ => trivial
  have hbody := hmembers.map_right (g := List.reverse) (S := fun _ _ => True) fun _ _ _ => trivial
  obtain ⟨-, ms, hms, -⟩ := hbody.enclosed downward_true length_le_of_closeObject trivial h
  exact ⟨ms, hms⟩

/-! ### Lists that are read item by item -/

theorem ahead_of_closeList {isFirst : Bool} {s r : List Char} (h : closeList s = .ok r) :
    Ahead n isFirst s [] r := by
  have hs := dropBlanks_of_closeList h
  exact ⟨1, by simp [items, nextItem, hs]⟩

/-- What was looked for as an item belongs to the list that is closed later. -/
theorem Ahead.of_item? {item : Reader α} (hitem : Covered n item) {isFirst : Bool}
    {s s' r : List Char} {a : Option α} (ha : item? isFirst item s = .ok (a, s'))
    (hs' : ∃ vs, Ahead n false s' vs r) : ∃ vs, Ahead n isFirst s vs r := by
  obtain ⟨vs, bound, hvs⟩ := hs'
  obtain ⟨⟨isThere, s₁⟩, hnext, ha⟩ := bind_eq_ok.1 ha
  cases isThere with
  | true =>
    obtain ⟨⟨b, s₂⟩, hb, ha⟩ := bind_eq_ok.1 ha
    cases ha
    obtain ⟨v, hv⟩ := hitem hb
    exact ⟨v :: vs, bound + 1, by simp [items, hnext, hv, hvs]⟩
  | false =>
    -- The list ends here, so nothing can be ahead of its bracket.
    cases ha
    obtain ⟨-, t, rfl⟩ := dropBlanks_of_nextItem_false hnext
    have hbracket : nextItem true false (']' :: t) = .ok (false, ']' :: t) := by
      simp [nextItem, dropBlanks_cons (by decide : isBlank ']' = false)]
    cases bound with
    | zero => cases hvs
    | succ bound =>
      obtain ⟨-, rfl⟩ : [] = vs ∧ t = r := by simpa [items, hbracket] using hvs
      exact ⟨[], 1, by simp [items, hnext]⟩

theorem Ahead.listBody {s r : List Char} {vs : List Json} (h : Ahead n true s vs r) :
    listBody true (value n) s = .ok (vs, r) := by
  obtain ⟨bound, h⟩ := h
  have hitems := items_of_length length_lt_of_value (Nat.lt_succ_self _) h
  simp [Json.listBody, hitems, enclosed, Except.map]

/-! ### Shapes -/

theorem value_list {s t r : List Char} {vs : List Json} (hs : dropBlanks s = '[' :: t)
    (h : listBody true (value n) t = .ok (vs, r)) : value (n + 1) s = .ok (array vs, r) := by
  simp [value, hs, h]

theorem value_object {s t r : List Char} {ms : List (String × Json)}
    (hs : dropBlanks s = '\x7b' :: t)
    (h : enclosed closeObject (objectBody (value n) t) = .ok (ms, r)) :
    value (n + 1) s = .ok (object ms, r) := by
  simp [value, hs, h]

theorem Shape.read_object {shape : Shape α} {body : Reader α} (hbody : shape.object? = some body)
    {s t : List Char} (hs : dropBlanks s = '\x7b' :: t) : shape.read s = body t := by
  simp [Shape.read, hs, hbody]

/-- A shape is covered if its ways to read lists and objects are. -/
theorem Shape.read_covered {shape : Shape α}
    (list : ∀ body s a r, shape.list? = some body → body s = .ok (a, r) →
      ∃ m vs, n = m + 1 ∧ listBody true (value m) s = .ok (vs, r))
    (object : ∀ body s a r, shape.object? = some body → body s = .ok (a, r) →
      ∃ m ms, n = m + 1 ∧ enclosed closeObject (objectBody (value m) s) = .ok (ms, r)) :
    Covered n shape.read := by
  intro s a r h
  unfold read at h
  split at h
  · cases h
  case h_2 c t hs =>
    split_ifs at h with hlist hobject
    · cases hbody : shape.list? with
      | none => simp [hbody] at h
      | some body =>
        obtain ⟨m, vs, rfl, hvs⟩ := list body t a r hbody (by simpa [hbody] using h)
        exact ⟨array vs, value_list (hlist ▸ hs) hvs⟩
    · cases hbody : shape.object? with
      | none => simp [hbody] at h
      | some body =>
        obtain ⟨m, ms, rfl, hms⟩ := object body t a r hbody (by simpa [hbody] using h)
        exact ⟨.object ms, value_object (hobject ▸ hs) hms⟩
    · obtain ⟨⟨v, r'⟩, hv, h⟩ := bind_eq_ok.1 h
      cases hofScalar : shape.ofScalar v with
      | error cause => simp [hofScalar] at h
      | ok b =>
        obtain ⟨-, rfl⟩ : b = a ∧ r' = r := by simpa [hofScalar] using h
        exact ⟨v, by simp [value, hs, hlist, hobject, hv]⟩

theorem Shape.string_covered : Covered n Shape.string.read :=
  Shape.read_covered (fun _ _ _ _ h => by cases h) fun _ _ _ _ h => by cases h

theorem Shape.word_covered : Covered n Shape.word.read :=
  Shape.read_covered (fun _ _ _ _ h => by cases h) fun _ _ _ _ h => by cases h

theorem Shape.listOf_covered {item : Shape α} (h : Covered n item.read) :
    Covered (n + 1) (Shape.listOf item).read := by
  refine Shape.read_covered (fun body s as r hbody has => ?_) fun _ _ _ _ hbody => by cases hbody
  cases hbody
  obtain ⟨-, vs, hvs, -⟩ := h.simulates.listBody downward_true true trivial has
  exact ⟨n, vs, rfl, hvs⟩

theorem Shape.mapOf_covered {item : Reader α} (h : Covered n item) :
    Covered (n + 1) (Shape.mapOf item).read := by
  refine Shape.read_covered (fun _ _ _ _ hbody => by cases hbody) fun body s m r hbody hm => ?_
  cases hbody
  have hmember : ∀ (m : OrderedMap α) (k : String) (reader : Reader (OrderedMap α)),
      (Except.ok fun s => do let (a, s) ← item s; return (m.insert k a, s) : Except Cause _) =
        .ok reader → Covered n reader := by
    intro m k reader hreader
    cases hreader
    exact h.map (m.insert k)
  obtain ⟨ms, hms⟩ := Covered.object hmember hm
  exact ⟨n, ms, rfl, hms⟩

theorem uniqueField_covered {item : Reader α} (h : Covered n item) {name : String}
    {isThere : Bool} {put : α → σ} {reader : Reader σ}
    (hreader : uniqueField name isThere item put = .ok reader) : Covered n reader := by
  cases isThere with
  | true => cases hreader
  | false =>
    cases hreader
    exact h.map put

end StyleModule.Json
