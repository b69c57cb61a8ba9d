import Mathlib.Data.List.Forall2
import StyleModule.Proofs.Expression.Containers
import StyleModule.Proofs.Expression.Reader
import StyleModule.Proofs.Json.RoundTrip
import StyleModule.Proofs.OrderedMap

/-!
# Expressions are read back

An expression is read as what it was written for, wherever it stands in a text, if no letter and no
digit follows it (`Expression.ReadsBack`). Lists and objects are read back if their parts are, and
from this all JSON values without floating point numbers are (`Expression.readJson_ofJson`). So it
can be told where a name or a value ends and what follows it begins
(`Expression.append_inj_of_followsValue`).
-/

namespace StyleModule.Expression

open Text

variable {α : Type}

/-- A text does not go on with a word or a number. -/
def Ends (r : List Char) : Prop := ∀ c ∈ r.head?, ¬ContinuesName c

/-- A text is read as a value, and reading stops right behind it. -/
def ReadsBack (scanner : Scanner α) (t : List Char) (a : α) : Prop :=
  ∀ r, Ends r → scanner (t ++ r) = some (a, r)

theorem ends_nil : Ends [] := by
  intro c hc
  cases hc

theorem ends_cons {c : Char} (hc : ¬ContinuesName c) (r : List Char) : Ends (c :: r) := by
  intro d hd
  cases hd
  exact hc

theorem Ends.isDigit {r : List Char} (hr : Ends r) : ∀ c ∈ r.head?, c.isDigit = false := by
  intro c hc
  exact Bool.eq_false_iff.2 fun hdigit => hr c hc (.inr (isDigit_iff.1 hdigit))

/-! ### Words -/

theorem readWord_append (w r : List Char) : readWord w (w ++ r) = some ((), r) := by
  induction w with
  | nil => rfl
  | cons c w ih => simp [readWord, ih]

theorem readString_double (s : String) (r : List Char) :
    readString (Quoted.double s ++ r) = some (s, r) := by
  have hs : (Json.quotation (s.toList.flatMap Quoted.doubleEscape ++ '"' :: r)).toOption =
      some (s, r) := by
    rw [Json.quotation_flatMap]
    rfl
  simpa [readString, Quoted.double] using hs

theorem readName_append {name : String} (h : IsName name) {r : List Char} (hr : Ends r) :
    readName (name.toList ++ r) = some (name, r) := by
  obtain ⟨c, cs, hname, hc, hcs⟩ := h
  have hall : ∀ d ∈ cs, decide (ContinuesName d) := by simpa using hcs
  have hend : ∀ d ∈ r.head?, decide (ContinuesName d) = false := by simpa [Ends] using hr
  obtain ⟨htake, hdrop⟩ := span_append hall hend
  rw [hname, List.cons_append, readName, if_pos hc, htake, hdrop, ← hname, String.ofList_toList]

/-- A string does not start like a bare name. -/
theorem readString_name {name : String} (h : IsName name) (r : List Char) :
    readString (name.toList ++ r) = none := by
  obtain ⟨c, cs, hname, hc, -⟩ := h
  have hquote : c ≠ '"' := by
    rintro rfl
    exact absurd hc (by decide)
  rw [hname, List.cons_append]
  -- The first character cannot be the quote.
  unfold readString
  split
  · simp_all
  · rfl

theorem readKey_keyText (name : String) (r : List Char) :
    readKey (keyText name ++ r) = some (name, r) := by
  have hcolon : Ends (':' :: r) := ends_cons (by decide) r
  by_cases h : isIdentifier name
  · have hname := isIdentifier_iff.1 h
    simp [readKey, keyText, h, readString_name hname, readName_append hname hcolon, readWord]
  · simp [readKey, keyText, h, readString_double, readWord]

/-! ### Numbers -/

theorem readNat_toDigits (n : Nat) : ReadsBack readNat (Nat.toDigits 10 n) n := by
  intro r hr
  have hvalue : Nat.ofDigitChars 10 (Nat.toDigits 10 n) 0 = n := Nat.ofDigitChars_ten_toDigits
  rw [readNat, Json.Numeral.spanDigits_append Json.Numeral.isDigit_of_mem_toDigits hr.isDigit]
  cases hd : Nat.toDigits 10 n with
  | nil => exact absurd hd Nat.toDigits_ne_nil
  | cons d ds =>
    rw [hd] at hvalue
    simp [hvalue]

theorem readInt_intText (n : Int) : ReadsBack readInt (Json.intText n) n := by
  intro r hr
  cases n with
  | ofNat n =>
    have hn := readNat_toDigits n r hr
    rw [Json.intText]
    unfold readInt
    split
    · next s hs =>
      -- A sign is no digit, and there is at least one digit.
      rw [hs] at hn
      cases hn
    · simp [hn]
  | negSucc n =>
    simp [Json.intText, readInt, readNat_toDigits (n + 1) r hr, Int.negSucc_eq]

/-! ### Containers -/

/-- What is read as an item does not start with the closing bracket that would end the items. -/
theorem ReadsBack.append_ne {item : Scanner α} {close : Char}
    (hclose : ∀ s, item (close :: s) = none) {t : List Char} {a : α} (h : ReadsBack item t a)
    {r : List Char} (hr : Ends r) (s : List Char) :
    t ++ r ≠ close :: s := by
  intro hs
  have hread := h r hr
  rw [hs, hclose] at hread
  cases hread

theorem readItems_flatMap {item : Scanner α} {close : Char} (hends : ¬ContinuesName close)
    (hcomma : close ≠ ',') {ts : List (List Char)} {as : List α}
    (has : List.Forall₂ (ReadsBack item) ts as) {t : List Char} {a : α} (ha : ReadsBack item t a)
    {bound : Nat} (hbound : ts.length < bound) (r : List Char) :
    readItems item close bound (t ++ ((ts.flatMap fun u => ',' :: u) ++ close :: r)) =
      some (a :: as, r) := by
  induction has generalizing t a bound with
  | nil =>
    obtain ⟨bound, rfl⟩ := Nat.exists_eq_add_one.2 (Nat.zero_lt_of_lt hbound)
    simp [readItems, ha _ (ends_cons hends r)]
  | @cons u b ts as hb has ih =>
    obtain ⟨bound, rfl⟩ := Nat.exists_eq_add_one.2 (Nat.zero_lt_of_lt hbound)
    have hrest := ih hb (by simpa using hbound)
    have hfirst := ha (',' :: (u ++ ((ts.flatMap fun u => ',' :: u) ++ close :: r)))
      (ends_cons (by decide) _)
    simp [readItems, hfirst, Ne.symm hcomma, hrest]

theorem readBracketed_commaSeparated {item : Scanner α} {openBracket close : Char}
    (hclose : ∀ s, item (close :: s) = none) (hends : ¬ContinuesName close)
    (hcomma : close ≠ ',') {ts : List (List Char)} {as : List α}
    (has : List.Forall₂ (ReadsBack item) ts as) (r : List Char) :
    readBracketed openBracket close item (openBracket :: (commaSeparated ts ++ [close]) ++ r) =
      some (as, r) := by
  cases has with
  | nil => simp [readBracketed, readWord]
  | @cons t a ts as ha has =>
    have hfollows : Ends ((ts.flatMap fun u => ',' :: u) ++ close :: r) := by
      cases ts with
      | nil => exact ends_cons hends r
      | cons u ts => exact ends_cons (by decide) _
    have hlen := length_le_length_flatMap (fun u : List Char => ',' :: u) ts (by simp)
    have hitems : ∀ bound, ts.length < bound →
        readItems item close bound (t ++ ((ts.flatMap fun u => ',' :: u) ++ close :: r)) =
          some (a :: as, r) :=
      fun bound hbound => readItems_flatMap hends hcomma has ha hbound r
    -- The first item is not taken for the end of the items.
    have hne := ha.append_ne hclose hfollows
    have hbound : ts.length < (t ++ ((ts.flatMap fun u => ',' :: u) ++ close :: r)).length := by
      simp only [List.length_append, List.length_cons]
      omega
    simp only [commaSeparated_cons, List.cons_append, List.append_assoc, List.nil_append,
      readBracketed, readWord, ↓reduceIte, Option.bind_eq_bind, Option.bind_some]
    cases hs : t ++ ((ts.flatMap fun u => ',' :: u) ++ close :: r) with
    | nil => simp at hs
    | cons c s =>
      have hc : c ≠ close := by
        rintro rfl
        exact hne s hs
      rw [hs] at hitems hbound
      simpa [hc] using hitems _ hbound

/-- A list is read back if its items are. -/
theorem readList_arrayText {item : Scanner α} (hclose : ∀ s, item (']' :: s) = none)
    {ts : List (List Char)} {as : List α} (has : List.Forall₂ (ReadsBack item) ts as)
    (r : List Char) : readList item (arrayText ts ++ r) = some (as, r) :=
  readBracketed_commaSeparated hclose (by decide) (by decide) has r

theorem readMember_keyText {item : Scanner α} {name : String} {t : List Char} {a : α}
    (ha : ReadsBack item t a) : ReadsBack (readMember item) (keyText name ++ t) (name, a) := by
  intro r hr
  simp [readMember, List.append_assoc, readKey_keyText, ha r hr]

/-- No name starts with a closing brace. -/
theorem readKey_brace (s : List Char) : readKey ('\x7d' :: s) = none := by
  have hstart : ¬StartsName '\x7d' := by decide
  simp [readKey, readString, readName, hstart]

/-- An object is read back if the values of its members are. -/
theorem readObject_objectText {item : Scanner α} {ms : List (String × List Char)}
    {es : List (String × α)}
    (hes : List.Forall₂ (fun m e => m.1 = e.1 ∧ ReadsBack item m.2 e.2) ms es) (r : List Char) :
    readObject item (objectText ms ++ r) = some (es, r) := by
  refine readBracketed_commaSeparated (fun s => ?_) (by decide) (by decide) ?_ r
  · simp [readMember, readKey_brace]
  · rw [List.forall₂_map_left_iff]
    refine hes.imp fun m e h => ?_
    obtain ⟨hname, ha⟩ := h
    rw [hname]
    exact readMember_keyText ha

theorem readMap_objectText {item : Scanner α} {ms : List (String × List Char)} {m : OrderedMap α}
    (hes : List.Forall₂ (fun m e => m.1 = e.1 ∧ ReadsBack item m.2 e.2) ms m.entries)
    (r : List Char) : readMap item (objectText ms ++ r) = some (m, r) := by
  simp [readMap, readObject_objectText hes, OrderedMap.ofList_entries]

/-! ### JSON values -/

theorem readKeyword_null (r : List Char) : readKeyword (Json.nullText ++ r) = some (.null, r) := by
  simp [readKeyword, Json.nullText, readWord]

theorem readKeyword_bool (b : Bool) (r : List Char) :
    readKeyword (Json.boolText b ++ r) = some (.bool b, r) := by
  cases b <;> simp [readKeyword, Json.boolText, readWord]

/-- What is not a container is told by its first character. -/
theorem readJson_cons (n : Nat) {c : Char} (hlist : c ≠ '[') (hobject : c ≠ '\x7b')
    (s : List Char) : readJson n (c :: s) =
      if c = '"' then (readString (c :: s)).map fun p => (.string p.1, p.2)
      else if c = '-' ∨ c.isDigit then (readInt (c :: s)).map fun p => (.int p.1, p.2)
      else readKeyword (c :: s) := by
  cases n <;> simp [readJson, hlist, hobject]

theorem readJson_bracket (n : Nat) (s : List Char) : readJson n (']' :: s) = none := by
  rw [readJson_cons n (by decide) (by decide)]
  simp [readKeyword, readWord]

theorem readJson_null (n : Nat) (r : List Char) :
    readJson n (Json.nullText ++ r) = some (.null, r) := by
  rw [← readKeyword_null]
  exact readJson_cons n (by decide) (by decide) _

theorem readJson_bool (n : Nat) (b : Bool) (r : List Char) :
    readJson n (Json.boolText b ++ r) = some (.bool b, r) := by
  rw [← readKeyword_bool]
  cases b <;> exact readJson_cons n (by decide) (by decide) _

theorem readJson_intText (n : Nat) (k : Int) :
    ReadsBack (readJson n) (Json.intText k) (.int k) := by
  intro r hr
  have hread := readInt_intText k r hr
  obtain ⟨c, s, hs, hc⟩ := Json.intText_eq_cons k
  rw [hs] at hread ⊢
  rw [List.cons_append] at hread ⊢
  have hlist : c ≠ '[' := Json.ne_of_startsNumber hc (by decide)
  have hobject : c ≠ '\x7b' := Json.ne_of_startsNumber hc (by decide)
  have hquote : c ≠ '"' := Json.ne_of_startsNumber hc (by decide)
  rw [readJson_cons n hlist hobject, if_neg hquote, if_pos hc, hread]
  rfl

theorem readJson_double (n : Nat) (s : String) (r : List Char) :
    readJson n (Quoted.double s ++ r) = some (.string s, r) := by
  have hread := readString_double s r
  rw [Quoted.double, List.cons_append] at hread ⊢
  rw [readJson_cons n (by decide) (by decide), if_pos rfl, hread]
  rfl

/-- A value without floating point numbers is read back. -/
theorem readJson_ofJson {n : Nat} {v : Json} (hv : v.HasNoFloats) (hn : v.depth ≤ n) :
    ReadsBack (readJson n) (ofJson v) v := by
  induction v using Json.induction generalizing n with
  | scalar v hscalar =>
    intro r hr
    cases hscalar using Json.IsScalar.cases with
    | null => exact readJson_null n r
    | bool b => exact readJson_bool n b r
    | int k => exact readJson_intText n k r hr
    | float x => exact hv.elim
    | string s => exact readJson_double n s r
  | array vs ih =>
    intro r hr
    cases n with
    | zero => simp [Json.depth] at hn
    | succ n =>
      obtain ⟨-, hv⟩ := Json.everywhere_array.1 hv
      rw [Json.depth_array_le_iff] at hn
      have hitems : List.Forall₂ (ReadsBack (readJson n)) (vs.map ofJson) vs := by
        rw [List.forall₂_map_left_iff]
        exact List.forall₂_same.2 fun v hmem => ih v hmem (hv v hmem) (hn v hmem)
      have hlist := readList_arrayText (readJson_bracket n) hitems r
      rw [ofJson_array]
      simpa [readJson, arrayText] using hlist
  | object ms ih =>
    intro r hr
    cases n with
    | zero => simp [Json.depth] at hn
    | succ n =>
      obtain ⟨-, hv⟩ := Json.everywhere_object.1 hv
      rw [Json.depth_object_le_iff] at hn
      have hmembers : List.Forall₂ (fun m e => m.1 = e.1 ∧ ReadsBack (readJson n) m.2 e.2)
          (ms.map fun m => (m.1, ofJson m.2)) ms := by
        rw [List.forall₂_map_left_iff]
        exact List.forall₂_same.2 fun m hm => ⟨rfl, ih m hm (hv m hm) (hn m hm)⟩
      have hobject := readObject_objectText hmembers r
      rw [ofJson_object]
      simpa [readJson, objectText] using hobject

/-! ### Values of properties -/

theorem length_le_length_commaSeparated {t : List Char} {ts : List (List Char)} (h : t ∈ ts) :
    t.length ≤ (commaSeparated ts).length := by
  cases ts with
  | nil => cases h
  | cons u ts =>
    rw [commaSeparated_cons, List.length_append]
    rcases List.mem_cons.1 h with rfl | h
    · omega
    · obtain ⟨before, after, rfl⟩ := List.append_of_mem h
      simp only [List.flatMap_append, List.flatMap_cons, List.length_append, List.length_cons]
      omega

/-- A text is at least as long as its value is deep. -/
theorem depth_le_length_ofJson (v : Json) : v.depth ≤ (ofJson v).length := by
  induction v using Json.induction with
  | scalar v hscalar =>
    rw [Json.depth_scalar hscalar]
    exact Nat.zero_le _
  | array vs ih =>
    have hitems : (Json.array vs).depth ≤ (commaSeparated (vs.map ofJson)).length + 1 := by
      rw [Json.depth_array_le_iff]
      intro v hv
      exact Nat.le_trans (ih v hv) (length_le_length_commaSeparated (List.mem_map_of_mem hv))
    simp only [ofJson, ofItems_zero, List.length_cons, List.length_append, List.length_nil]
    omega
  | object ms ih =>
    have hmembers : (Json.object ms).depth ≤
        (commaSeparated (ms.map memberText)).length + 1 := by
      rw [Json.depth_object_le_iff]
      intro m hm
      have hlen := length_le_length_commaSeparated (List.mem_map_of_mem (f := memberText) hm)
      rw [memberText, List.length_append] at hlen
      exact Nat.le_trans (ih m hm) (by omega)
    simp only [ofJson, ofMembers_zero, List.length_cons, List.length_append, List.length_nil]
    omega

theorem readWord_of_ne {c : Char} {s : List Char} (h : ∀ t, s ≠ c :: t) (w : List Char) :
    readWord (c :: w) s = none := by
  cases s with
  | nil => rfl
  | cons d s =>
    have hd : c ≠ d := by
      rintro rfl
      exact h s rfl
    rw [readWord, if_neg hd]

theorem readValue_literal {l : Literal} (hl : l.json.HasNoFloats) :
    ReadsBack readValue (ofJson l.json) (.literal l) := by
  intro r hr
  have hread : ∀ n, l.json.depth ≤ n → ReadsBack (readJson n) (ofJson l.json) l.json :=
    fun n hn => readJson_ofJson hl hn
  have hdepth : l.json.depth ≤ (ofJson l.json ++ r).length := by
    have hlen := depth_le_length_ofJson l.json
    rw [List.length_append]
    omega
  -- No expression for a literal starts like a member.
  have hmember : ∀ s, readJson l.json.depth ('S' :: s) = none := by
    intro s
    rw [readJson_cons _ (by decide) (by decide)]
    simp [readKeyword, readWord]
  have hword := readWord_of_ne ((hread _ (Nat.le_refl _)).append_ne hmember hr) "tyleSheet.".toList
  unfold readValue
  rw [show "StyleSheet.".toList = 'S' :: "tyleSheet.".toList from rfl, hword]
  simp only [hread _ hdepth r hr, Option.map_some, Literal.ofJson_json]

theorem readValue_member {name : String} (h : isIdentifier name) :
    ReadsBack readValue ("StyleSheet.".toList ++ name.toList) (.member name) := by
  intro r hr
  unfold readValue
  rw [List.append_assoc, readWord_append]
  simp [readName_append (isIdentifier_iff.1 h) hr]

/-! ### Where expressions end -/

/-- What is read back from the same text by the same reader is the same. -/
theorem eq_of_append_eq {scanner : Scanner α} {t u x y : List Char} {a b : α}
    (ha : scanner (t ++ x) = some (a, x)) (hb : scanner (u ++ y) = some (b, y))
    (h : t ++ x = u ++ y) : a = b ∧ x = y := by
  rw [h, hb] at ha
  obtain ⟨rfl, rfl⟩ := Prod.mk.inj (Option.some.inj ha)
  exact ⟨rfl, rfl⟩

/-- A name ends at its colon, whatever follows. -/
theorem keyText_append_inj {a b : String} {x y : List Char} (h : keyText a ++ x = keyText b ++ y) :
    a = b ∧ x = y :=
  eq_of_append_eq (readKey_keyText a x) (readKey_keyText b y) h

theorem ofJson_append_inj {v w : Json} (hv : v.HasNoFloats) (hw : w.HasNoFloats) {x y : List Char}
    (hx : Ends x) (hy : Ends y) (h : ofJson v ++ x = ofJson w ++ y) : v = w ∧ x = y := by
  -- One bound for both values, so that the same reader reads both.
  have hreadv : ReadsBack (readJson (max v.depth w.depth)) (ofJson v) v :=
    readJson_ofJson hv (Nat.le_max_left _ _)
  have hreadw : ReadsBack (readJson (max v.depth w.depth)) (ofJson w) w :=
    readJson_ofJson hw (Nat.le_max_right _ _)
  exact eq_of_append_eq (hreadv x hx) (hreadw y hy) h

/-- A digit could belong to the number before it. -/
example : ofJson (.int 1) ++ ['2'] = ofJson (.int 12) ++ [] := by decide

/-- What may follow a value: nothing, or a text that starts with a comma or a closing bracket. -/
def FollowsValue (r : List Char) : Prop := ∀ c ∈ r.head?, c ∈ [',', ']', '\x7d', ')']

theorem FollowsValue.ends {r : List Char} (h : FollowsValue r) : Ends r := by
  intro c hc
  have hclosing := h c hc
  simp only [List.mem_cons, List.not_mem_nil, or_false] at hclosing
  rcases hclosing with rfl | rfl | rfl | rfl <;> decide

/-- **Names and values delimit themselves.** A name with its colon is told from whatever follows it,
and so is a value without floating point numbers if a comma, a closing bracket or nothing follows
it. -/
theorem append_inj_of_followsValue :
    (∀ (a b : String) (x y : List Char), keyText a ++ x = keyText b ++ y → a = b ∧ x = y) ∧
    ∀ v w : Json, v.HasNoFloats → w.HasNoFloats →
      ∀ x y : List Char, FollowsValue x → FollowsValue y →
        ofJson v ++ x = ofJson w ++ y → v = w ∧ x = y := by
  refine ⟨fun a b x y h => keyText_append_inj h, fun v w hv hw x y hx hy h => ?_⟩
  exact ofJson_append_inj hv hw hx.ends hy.ends h

/-- Members in order of their names. -/
def sortedMembers : Json := .object [("a-b", .array [.string "],"]), ("b", .int 12)]

/-- The same members in another order. -/
def swappedMembers : Json := .object [("b", .int 12), ("a-b", .array [.string "],"])]

theorem append_inj_of_followsValue_sorted :
    sortedMembers.HasNoFloats ∧ swappedMembers.canonical.HasNoFloats ∧ FollowsValue [')'] ∧
      ofJson swappedMembers.canonical ++ [')'] = ofJson sortedMembers ++ [')'] ∧
      swappedMembers.canonical = sortedMembers := by
  have hsorted : sortedMembers.HasNoFloats := by
    simp [sortedMembers, Json.HasNoFloats, Json.Everywhere, Json.ItemsEverywhere,
      Json.MembersEverywhere]
  have hswapped : swappedMembers.HasNoFloats := by
    simp [swappedMembers, Json.HasNoFloats, Json.Everywhere, Json.ItemsEverywhere,
      Json.MembersEverywhere]
  have hcanonical : swappedMembers.canonical.HasNoFloats :=
    Json.everywhere_canonical (fun _ => trivial) (fun _ => trivial) hswapped
  have hfollows : FollowsValue [')'] := by
    simp [FollowsValue]
  have htext : ofJson swappedMembers.canonical ++ [')'] = ofJson sortedMembers ++ [')'] := by
    decide
  have hsame := append_inj_of_followsValue.2 _ _ hcanonical hsorted _ _ hfollows hfollows htext
  exact ⟨hsorted, hcanonical, hfollows, htext, hsame.1⟩

end StyleModule.Expression
