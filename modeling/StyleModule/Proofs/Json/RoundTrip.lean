import StyleModule.Proofs.Json.Decoding
import StyleModule.Proofs.Json.Number
import StyleModule.Proofs.Json.Quotation

/-!
# Compact texts are read back

The compact text of a value says the value, if its numbers are whole and it is not nested too
deeply (`Json.says_compact`). In the middle of a text a value is read from its compact text up to
whatever cannot belong to a number (`Json.value_text`). Names may be repeated, and members keep
their order.
-/

namespace StyleModule.Json

open Text

variable {n : Nat}

/-! ### Values that are not containers -/

/-- What the first character of a text says about the value. -/
theorem value_cons {c : Char} {s : List Char} (hblank : isBlank c = false) (hlist : c ≠ '[')
    (hobject : c ≠ '\x7b') : value n (c :: s) = scalar (c :: s) := by
  unfold value
  simp only [dropBlanks_cons hblank, hlist, hobject, ↓reduceIte]

/-- A character that a number starts with is none of those that do not. -/
theorem ne_of_startsNumber {c d : Char} (hc : c = '-' ∨ c.isDigit)
    (hd : ¬(d = '-' ∨ d.isDigit = true)) : c ≠ d := by
  rintro rfl
  exact hd hc

theorem isBlank_of_startsNumber {c : Char} (hc : c = '-' ∨ c.isDigit) : isBlank c = false := by
  simp only [isBlank, Bool.or_eq_false_iff, beq_eq_false_iff_ne]
  exact ⟨⟨⟨ne_of_startsNumber hc (by decide), ne_of_startsNumber hc (by decide)⟩,
    ne_of_startsNumber hc (by decide)⟩, ne_of_startsNumber hc (by decide)⟩

theorem value_number {c : Char} (hc : c = '-' ∨ c.isDigit) (s : List Char) :
    value n (c :: s) = number (c :: s) := by
  have hn : c ≠ 'n' := ne_of_startsNumber hc (by decide)
  have ht : c ≠ 't' := ne_of_startsNumber hc (by decide)
  have hf : c ≠ 'f' := ne_of_startsNumber hc (by decide)
  have hquote : c ≠ '"' := ne_of_startsNumber hc (by decide)
  have hlist : c ≠ '[' := ne_of_startsNumber hc (by decide)
  have hobject : c ≠ '\x7b' := ne_of_startsNumber hc (by decide)
  rw [value_cons (isBlank_of_startsNumber hc) hlist hobject]
  simp only [scalar, hn, ht, hf, hquote, hc, ↓reduceIte]

theorem intText_eq_cons (k : Int) : ∃ c s, intText k = c :: s ∧ (c = '-' ∨ c.isDigit) := by
  cases k with
  | ofNat k =>
    cases hd : Nat.toDigits 10 k with
    | nil => exact absurd hd Nat.toDigits_ne_nil
    | cons d ds =>
      have hdigit : d.isDigit := Numeral.isDigit_of_mem_toDigits d (hd ▸ List.mem_cons_self)
      exact ⟨d, ds, hd, .inr hdigit⟩
  | negSucc k => exact ⟨'-', _, rfl, .inl rfl⟩

theorem value_intText {k : Int} (hk : FitsWord k) {r : List Char} (hr : EndsNumber r) :
    value n (intText k ++ r) = .ok (.int k, r) := by
  rw [← number_intText hk hr]
  obtain ⟨c, s, hs, hc⟩ := intText_eq_cons k
  rw [hs, List.cons_append, value_number hc]

theorem value_minusZero {r : List Char} (hr : EndsNumber r) :
    value n (floatNotation.write (-0.0) ++ r) = .ok (.float (-0.0), r) := by
  rw [← number_minusZero hr, write_minusZero]
  exact value_number (.inl rfl) _

theorem value_double (s : String) (r : List Char) :
    value n (Quoted.double s ++ r) = .ok (.string s, r) := by
  rw [Quoted.double, List.cons_append, List.append_assoc,
    value_cons (by decide) (by decide) (by decide)]
  simp [scalar, quotation_flatMap]

/-! ### The text of a value -/

theorem itemTexts_eq_map (vs : List Json) : itemTexts vs = vs.map text := by
  induction vs with
  | nil => rfl
  | cons v vs ih => simp [itemTexts, ih]

/-- The text of a member: the quoted name, a colon and the value. -/
def memberText (m : String × Json) : List Char := Quoted.double m.1 ++ ':' :: text m.2

theorem memberTexts_eq_map (ms : List (String × Json)) : memberTexts ms = ms.map memberText := by
  induction ms with
  | nil => rfl
  | cons m ms ih => obtain ⟨k, v⟩ := m; simp [memberTexts, memberText, ih]

/-- A value starts with a character that neither stands between values nor ends a list. -/
theorem text_eq_cons {v : Json} (hv : v.HasOnlyIntegers) :
    ∃ c s, v.text = c :: s ∧ isBlank c = false ∧ c ≠ ']' := by
  cases v with
  | null => exact ⟨_, _, rfl, by decide⟩
  | bool b => cases b <;> exact ⟨_, _, rfl, by decide⟩
  | int k =>
    obtain ⟨c, s, hs, hc⟩ := intText_eq_cons k
    exact ⟨c, s, hs, isBlank_of_startsNumber hc, ne_of_startsNumber hc (by decide)⟩
  | float x =>
    obtain rfl : x = -0.0 := hv
    exact ⟨'-', _, by rw [text, write_minusZero], by decide⟩
  | string s => exact ⟨'"', _, rfl, by decide⟩
  | array vs => exact ⟨'[', _, rfl, by decide⟩
  | object ms => exact ⟨'\x7b', _, rfl, by decide⟩

/-! ### Containers -/

theorem endsNumber_items (vs : List Json) (r : List Char) :
    EndsNumber ((vs.flatMap fun v => ',' :: v.text) ++ ']' :: r) := by
  cases vs with
  | nil => exact endsNumber_bracket r
  | cons v vs => exact endsNumber_comma _

theorem endsNumber_members (ms : List (String × Json)) (r : List Char) :
    EndsNumber ((ms.flatMap fun m => ',' :: memberText m) ++ '\x7d' :: r) := by
  cases ms with
  | nil => exact endsNumber_brace r
  | cons m ms => exact endsNumber_comma _

/-- What is to be shown of each value: it is read back from its text, wherever that stands. -/
def IsReadBack (n : Nat) (v : Json) : Prop :=
  ∀ r, EndsNumber r → value n (v.text ++ r) = .ok (v, r)

theorem nextItem_bracket {isFirst : Bool} (r : List Char) :
    nextItem true isFirst (']' :: r) = .ok (false, ']' :: r) := by
  simp [nextItem, dropBlanks_cons (by decide : isBlank ']' = false)]

theorem nextItem_text {v : Json} (hv : v.HasOnlyIntegers) (r : List Char) :
    nextItem true true (v.text ++ r) = .ok (true, v.text ++ r) ∧
      nextItem true false (',' :: (v.text ++ r)) = .ok (true, v.text ++ r) := by
  obtain ⟨c, s, hs, hblank, hend⟩ := text_eq_cons hv
  have hcomma : isBlank ',' = false := by decide
  simp [hs, nextItem, dropBlanks_cons hblank, dropBlanks_cons hcomma, hend]

/-- The items after the first one. -/
theorem items_flatMap {vs : List Json} (hvs : ∀ v ∈ vs, v.HasOnlyIntegers ∧ IsReadBack n v)
    {bound : Nat} (hbound : vs.length < bound) (r : List Char) :
    items true (value n) bound false ((vs.flatMap fun v => ',' :: v.text) ++ ']' :: r) =
      .ok (vs, ']' :: r) := by
  induction vs generalizing bound with
  | nil =>
    obtain ⟨bound, rfl⟩ := Nat.exists_eq_add_one.2 (Nat.zero_lt_of_lt hbound)
    simp [items, nextItem_bracket]
  | cons v vs ih =>
    obtain ⟨bound, rfl⟩ := Nat.exists_eq_add_one.2 (Nat.zero_lt_of_lt hbound)
    obtain ⟨⟨hv, hread⟩, hvs⟩ := List.forall_mem_cons.1 hvs
    have hrest := ih hvs (by simpa using hbound)
    simp only [List.flatMap_cons, List.cons_append, List.append_assoc, items,
      (nextItem_text hv _).2, ok_bind, ↓reduceIte, hread _ (endsNumber_items vs r), hrest,
      pure_eq_ok]

theorem listBody_itemTexts {vs : List Json} (hvs : ∀ v ∈ vs, v.HasOnlyIntegers ∧ IsReadBack n v)
    (r : List Char) :
    listBody true (value n) (commaSeparated (itemTexts vs) ++ ']' :: r) = .ok (vs, r) := by
  have hitems : items true (value n) ((commaSeparated (itemTexts vs) ++ ']' :: r).length + 1) true
      (commaSeparated (itemTexts vs) ++ ']' :: r) = .ok (vs, ']' :: r) := by
    rw [itemTexts_eq_map]
    cases vs with
    | nil => simp [items, nextItem_bracket]
    | cons v vs =>
      obtain ⟨⟨hv, hread⟩, hvs⟩ := List.forall_mem_cons.1 hvs
      have hlen := length_le_length_flatMap (fun v : Json => ',' :: v.text) vs (by simp)
      simp only [List.map_cons, commaSeparated_cons, List.flatMap_map, List.append_assoc, items,
        (nextItem_text hv _).1, ok_bind, ↓reduceIte, hread _ (endsNumber_items vs r)]
      rw [items_flatMap hvs (by simp only [List.length_append, List.length_cons]; omega)]
      rfl
  rw [listBody, hitems, enclosed, closeList_bracket]
  rfl

theorem nextName_brace {isFirst : Bool} (r : List Char) :
    nextName true isFirst ('\x7d' :: r) = .ok (false, '\x7d' :: r) := by
  simp [nextName, dropBlanks_cons (by decide : isBlank '\x7d' = false)]

theorem nextName_quote (r : List Char) :
    nextName true true ('"' :: r) = .ok (true, r) ∧
      nextName true false (',' :: '"' :: r) = .ok (true, r) := by
  simp [nextName, dropBlanks_cons (by decide : isBlank '"' = false),
    dropBlanks_cons (by decide : isBlank ',' = false)]

theorem memberText_append (m : String × Json) (r : List Char) :
    memberText m ++ r =
      '"' :: (m.1.toList.flatMap Quoted.doubleEscape ++ '"' :: ':' :: (m.2.text ++ r)) := by
  simp [memberText, Quoted.double]

/-- A member is read back, and put in front of those before it. -/
theorem members_memberText {m : String × Json} (hm : IsReadBack n m.2) {bound : Nat}
    {isFirst : Bool} {before : List (String × Json)} {s t r : List Char}
    (hs : memberText m ++ r = '"' :: t) (hnext : nextName true isFirst s = .ok (true, t))
    (hr : EndsNumber r) :
    members true quotation (keepMember (value n)) (bound + 1) isFirst before s =
      members true quotation (keepMember (value n)) bound false (m :: before) r := by
  rw [memberText_append, List.cons.injEq] at hs
  obtain ⟨-, rfl⟩ := hs
  have hcolon : ∀ u, colon (':' :: u) = .ok u := by
    intro u
    simp [colon, dropBlanks_cons (by decide : isBlank ':' = false)]
  simp only [members, hnext, ok_bind, ↓reduceIte, quotation_flatMap, keepMember, hcolon, hm r hr,
    pure_eq_ok]

/-- The members after the first one. -/
theorem members_flatMap {ms : List (String × Json)} (hms : ∀ m ∈ ms, IsReadBack n m.2) {bound : Nat}
    (hbound : ms.length < bound) (before : List (String × Json)) (r : List Char) :
    members true quotation (keepMember (value n)) bound false before
        ((ms.flatMap fun m => ',' :: memberText m) ++ '\x7d' :: r) =
      .ok (ms.reverse ++ before, '\x7d' :: r) := by
  induction ms generalizing bound before with
  | nil =>
    obtain ⟨bound, rfl⟩ := Nat.exists_eq_add_one.2 (Nat.zero_lt_of_lt hbound)
    simp [members, nextName_brace]
  | cons m ms ih =>
    obtain ⟨bound, rfl⟩ := Nat.exists_eq_add_one.2 (Nat.zero_lt_of_lt hbound)
    obtain ⟨hm, hms⟩ := List.forall_mem_cons.1 hms
    -- The reader starts behind the quote that the text of the member starts with.
    have hs := memberText_append m ((ms.flatMap fun m => ',' :: memberText m) ++ '\x7d' :: r)
    rw [List.flatMap_cons, List.cons_append, List.cons_append, List.append_assoc,
      members_memberText hm hs (by rw [hs, (nextName_quote _).2]) (endsNumber_members ms r),
      ih hms (by simpa using hbound)]
    simp

theorem objectBody_memberTexts {ms : List (String × Json)} (hms : ∀ m ∈ ms, IsReadBack n m.2)
    (r : List Char) :
    enclosed closeObject
        (objectBody (value n) (commaSeparated (memberTexts ms) ++ '\x7d' :: r)) = .ok (ms, r) := by
  have hmembers : membersFrom [] (keepMember (value n))
      (commaSeparated (memberTexts ms) ++ '\x7d' :: r) = .ok (ms.reverse, '\x7d' :: r) := by
    rw [memberTexts_eq_map, membersFrom]
    cases ms with
    | nil => simp [members, nextName_brace]
    | cons m ms =>
      obtain ⟨hm, hms⟩ := List.forall_mem_cons.1 hms
      have hs := memberText_append m ((ms.flatMap fun m => ',' :: memberText m) ++ '\x7d' :: r)
      have hlen :=
        length_le_length_flatMap (fun m : String × Json => ',' :: memberText m) ms (by simp)
      rw [List.map_cons, commaSeparated_cons, List.flatMap_map, List.append_assoc,
        members_memberText hm hs (by rw [hs, (nextName_quote _).1]) (endsNumber_members ms r),
        members_flatMap hms (by simp only [List.length_append, List.length_cons]; omega)]
      simp
  rw [objectBody, hmembers, ok_bind]
  simp [enclosed, closeObject_brace, Except.map]

/-! ### All values -/

/-- A value is read back from its text, wherever that stands. -/
theorem value_text {v : Json} (hv : v.HasOnlyIntegers) (hn : v.depth ≤ n) : IsReadBack n v := by
  induction v using induction generalizing n with
  | scalar v hscalar =>
    intro r hr
    cases hscalar using IsScalar.cases with
    | null => simp [text, nullText, value_cons, isBlank, scalar, word]
    | bool b => cases b <;> simp [text, boolText, value_cons, isBlank, scalar, word]
    | int k => exact value_intText hv hr
    | float x =>
      obtain rfl : x = -0.0 := hv
      exact value_minusZero hr
    | string s => exact value_double s r
  | array vs ih =>
    intro r hr
    -- One container fewer may be open in the items.
    cases n with
    | zero => simp [depth] at hn
    | succ n =>
      obtain ⟨-, hv⟩ := everywhere_array.1 hv
      rw [depth_array_le_iff] at hn
      have hitems : ∀ v ∈ vs, v.HasOnlyIntegers ∧ IsReadBack n v :=
        fun v hmem => ⟨hv v hmem, ih v hmem (hv v hmem) (hn v hmem)⟩
      have hbody := listBody_itemTexts hitems r
      simp [text, value, dropBlanks_cons (by decide : isBlank '[' = false), hbody]
  | object ms ih =>
    intro r hr
    cases n with
    | zero => simp [depth] at hn
    | succ n =>
      obtain ⟨-, hv⟩ := everywhere_object.1 hv
      rw [depth_object_le_iff] at hn
      have hbody := objectBody_memberTexts (fun m hm => ih m hm (hv m hm) (hn m hm)) r
      simp [text, value, dropBlanks_cons (by decide : isBlank '\x7b' = false), hbody]

/-- The compact text of a value says the value. -/
theorem says_compact {v : Json} (hv : v.HasOnlyIntegers) (hdepth : v.depth ≤ maxOpen) :
    Says v.compact v := by
  have hvalue : value maxOpen v.text = .ok (v, []) := by
    simpa using value_text hv hdepth [] endsNumber_nil
  simp [Says, Reader.run, compact, hvalue, dropBlanks]

end StyleModule.Json
