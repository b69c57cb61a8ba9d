import Mathlib.Algebra.Group.Nat.Defs
import StyleModule.Proofs.Extraction.Parts
import StyleModule.Proofs.Json.Yielding

/-!
# The language of extractions

Which JSON values are read as extractions, and as which (`Extraction.read_eq_ok_iff`). A value has
the shape of an extraction (`Extraction.HasShape`) if it lists the four maps by name, or some of
them by place, and each of them has its own shape. The extraction then says what the value describes
(`Extraction.Describes`): of names that are repeated in a map the first one gives the place and the
last one the value.
-/

namespace StyleModule.Extraction

open Json

variable {α : Type}

/-! ### Shape -/

/-- A value has the shape of an extraction. -/
structure HasShape (v : Json) : Prop where
  /-- It is an object that lists no map twice, or a list of at most four maps. -/
  parts : HasParts v
  /-- The declarations are objects of anything, by selector. -/
  styles : ∀ w ∈ part? "styles" 0 v, IsObjectOf (IsObjectOf fun _ => True) w
  /-- The conditions are lists of groups, by selector; a condition is a list of two strings. -/
  atRules : ∀ w ∈ part? "atRules" 1 v, IsObjectOf (IsListOf (IsListOf fun c =>
    ∃ kind argument, c = .array [.string kind, .string argument])) w
  /-- The masks are whole numbers of 64 bits without a sign, by selector. -/
  masks : ∀ w ∈ part? "masks" 2 v, IsObjectOf (fun mask => ∃ n : Nat, n < 2 ^ 64 ∧ mask = .int n) w
  /-- The topics are lists of strings, by selector. -/
  topics : ∀ w ∈ part? "topics" 3 v, IsObjectOf (IsListOf fun topic => ∃ s, topic = .string s) w

/-! ### Contents -/

/-- What a part says of a map. A missing part says that it is empty. -/
def PartDescribes (R : Json → OrderedMap α → Prop) : Option Json → OrderedMap α → Prop
  | none, m => m = ∅
  | some v, m => R v m

/-- A value says what is in an extraction. -/
structure Describes (v : Json) (e : Extraction) : Prop where
  /-- The declarations, each with what its value is read as. -/
  styles : PartDescribes (DescribesMap (DescribesMap fun w p => p = .ofJson w))
    (part? "styles" 0 v) e.styles
  /-- The conditions. -/
  atRules : PartDescribes (DescribesMap (DescribesList (DescribesList fun w c => w = c.toJson)))
    (part? "atRules" 1 v) e.atRules
  /-- The masks. -/
  masks : PartDescribes (DescribesMap fun w mask => w = .int mask.toNat) (part? "masks" 2 v) e.masks
  /-- The topics. -/
  topics : PartDescribes (DescribesMap (DescribesList fun w topic => w = .string topic))
    (part? "topics" 3 v) e.topics

/-! ### Scalars and conditions -/

theorem string?_eq_some_iff {v : Json} {s : String} : v.string? = some s ↔ v = .string s := by
  cases v <;> simp [Json.string?]

theorem isSome_string? {v : Json} : v.string?.isSome ↔ ∃ s, v = .string s := by
  simp only [Option.isSome_iff_exists, string?_eq_some_iff]

theorem conditionOfJson?_eq_some_iff {v : Json} {c : Condition} :
    Condition.ofJson? v = some c ↔ v = c.toJson := by
  constructor
  · intro h
    unfold Condition.ofJson? at h
    split at h
    · cases h
      rfl
    · cases h
  · rintro rfl
    rfl

theorem isSome_conditionOfJson? {v : Json} :
    (Condition.ofJson? v).isSome ↔
      ∃ kind argument, v = .array [.string kind, .string argument] := by
  rw [Option.isSome_iff_exists]
  constructor
  · rintro ⟨c, hc⟩
    exact ⟨c.kind, c.argument, conditionOfJson?_eq_some_iff.1 hc⟩
  · rintro ⟨kind, argument, rfl⟩
    exact ⟨⟨kind, argument⟩, rfl⟩

/-- A mask is its number if that has 64 bits. -/
theorem word?_eq_some {v : Json} {mask : UInt64} (hv : ∀ k, v = .int k → FitsWord k)
    (h : word? v = some mask) : v = .int mask.toNat := by
  cases v with
  | int k =>
    obtain ⟨-, hlt⟩ := hv k rfl
    rw [word?] at h
    split_ifs at h with hsign
    cases h
    have hmask : k.toNat.toUInt64.toNat = k.toNat := by
      simp only [Nat.toUInt64_eq, UInt64.toNat_ofNat']
      omega
    rw [hmask, Int.toNat_of_nonneg hsign]
  | _ => cases h

theorem isSome_word? {v : Json} (hv : ∀ k, v = .int k → FitsWord k) :
    (word? v).isSome ↔ ∃ n : Nat, n < 2 ^ 64 ∧ v = .int n := by
  cases v with
  | int k =>
    obtain ⟨-, hlt⟩ := hv k rfl
    have hsign : (word? (.int k)).isSome ↔ 0 ≤ k := by
      rw [word?]
      split_ifs with hsign <;> simp [hsign]
    rw [hsign]
    constructor
    · intro hk
      exact ⟨k.toNat, by omega, by rw [Int.toNat_of_nonneg hk]⟩
    · rintro ⟨n, -, hn⟩
      cases hn
      exact Int.natCast_nonneg n
  | _ => simp [word?]

/-! ### Decoding -/

theorem isSome_stylesOfJson? {v : Json} :
    (stylesOfJson? v).isSome ↔ IsObjectOf (IsObjectOf fun _ => True) v := by
  simp only [stylesOfJson?, isSome_mapOf?, Option.isSome_some]

theorem isSome_atRulesOfJson? {v : Json} :
    (atRulesOfJson? v).isSome ↔ IsObjectOf (IsListOf (IsListOf fun c =>
      ∃ kind argument, c = .array [.string kind, .string argument])) v := by
  simp only [atRulesOfJson?, isSome_mapOf?, isSome_listOf?, isSome_conditionOfJson?]

theorem isSome_topicsOfJson? {v : Json} :
    (topicsOfJson? v).isSome ↔ IsObjectOf (IsListOf fun topic => ∃ s, topic = .string s) v := by
  simp only [topicsOfJson?, isSome_mapOf?, isSome_listOf?, isSome_string?]

theorem isSome_masksOfJson? {v : Json} (hv : v.Everywhere fun w => ∀ k, w = .int k → FitsWord k) :
    (masksOfJson? v).isSome ↔ IsObjectOf (fun mask => ∃ n : Nat, n < 2 ^ 64 ∧ mask = .int n) v := by
  rw [masksOfJson?, isSome_mapOf?]
  cases v with
  | object ms =>
    have hms := (everywhere_object.1 hv).2
    exact forall₂_congr fun m hm => isSome_word? (hms m hm).self
  | _ => rfl

theorem describes_stylesOfJson? {v : Json} {m : OrderedMap StyleRecord}
    (h : stylesOfJson? v = some m) :
    DescribesMap (DescribesMap fun w p => p = .ofJson w) v m :=
  describesMap_of_mapOf? h fun _ _ _ hrecord => describesMap_of_mapOf? hrecord fun _ _ _ hp =>
    (Option.some.inj hp).symm

theorem describes_atRulesOfJson? {v : Json} {m : OrderedMap (List (List Condition))}
    (h : atRulesOfJson? v = some m) :
    DescribesMap (DescribesList (DescribesList fun w c => w = c.toJson)) v m :=
  describesMap_of_mapOf? h fun _ _ _ hgroups => describesList_of_listOf? hgroups fun _ _ hgroup =>
    describesList_of_listOf? hgroup fun _ _ hc => conditionOfJson?_eq_some_iff.1 hc

theorem describes_masksOfJson? {v : Json} {m : OrderedMap UInt64}
    (hv : v.Everywhere fun w => ∀ k, w = .int k → FitsWord k) (h : masksOfJson? v = some m) :
    DescribesMap (fun w mask => w = .int mask.toNat) v m :=
  describesMap_of_mapOf? h fun _ _ hpart hmask => word?_eq_some (hpart.everywhere hv).self hmask

theorem describes_topicsOfJson? {v : Json} {m : OrderedMap (List String)}
    (h : topicsOfJson? v = some m) :
    DescribesMap (DescribesList fun w topic => w = .string topic) v m :=
  describesMap_of_mapOf? h fun _ _ _ htopics => describesList_of_listOf? htopics fun _ _ hs =>
    string?_eq_some_iff.1 hs

/-! ### Parts -/

theorem isSome_mapOfPart? {decode : Json → Option (OrderedMap α)} {v : Option Json} :
    (mapOfPart? decode v).isSome ↔ ∀ w ∈ v, (decode w).isSome := by
  cases v <;> simp [mapOfPart?]

theorem partDescribes_of_mapOfPart? {decode : Json → Option (OrderedMap α)}
    {R : Json → OrderedMap α → Prop} {v : Option Json} {m : OrderedMap α}
    (h : mapOfPart? decode v = some m) (hR : ∀ w ∈ v, decode w = some m → R w m) :
    PartDescribes R v m := by
  cases v with
  | none => exact (Option.some.inj h).symm
  | some w => exact hR w rfl h

theorem everywhere_part? {p : Json → Prop} {name : String} {place : Nat} {v w : Json}
    (hv : v.Everywhere p) (hw : w ∈ part? name place v) : w.Everywhere p := by
  cases v with
  | array vs => exact (IsPart.item (List.mem_of_getElem? hw)).everywhere hv
  | object ms => exact (IsPart.member (mem_of_member? hw)).everywhere hv
  | _ => cases hw

theorem exists_ofJson?_iff {v : Json} (hv : v.Everywhere fun w => ∀ k, w = .int k → FitsWord k) :
    (∃ e, ofJson? v = some e) ↔ HasShape v := by
  simp only [ofJson?_eq_some_iff]
  constructor
  · rintro ⟨e, hparts, hstyles, hatRules, hmasks, htopics⟩
    have hstyles := isSome_mapOfPart?.1 (Option.isSome_of_eq_some hstyles)
    have hatRules := isSome_mapOfPart?.1 (Option.isSome_of_eq_some hatRules)
    have hmasks := isSome_mapOfPart?.1 (Option.isSome_of_eq_some hmasks)
    have htopics := isSome_mapOfPart?.1 (Option.isSome_of_eq_some htopics)
    exact {
      parts := hparts
      styles := fun w hw => isSome_stylesOfJson?.1 (hstyles w hw)
      atRules := fun w hw => isSome_atRulesOfJson?.1 (hatRules w hw)
      masks := fun w hw => (isSome_masksOfJson? (everywhere_part? hv hw)).1 (hmasks w hw)
      topics := fun w hw => isSome_topicsOfJson?.1 (htopics w hw) }
  · intro h
    obtain ⟨styles, hstyles⟩ := Option.isSome_iff_exists.1 <| isSome_mapOfPart?.2 fun w hw =>
      isSome_stylesOfJson?.2 (h.styles w hw)
    obtain ⟨atRules, hatRules⟩ := Option.isSome_iff_exists.1 <| isSome_mapOfPart?.2 fun w hw =>
      isSome_atRulesOfJson?.2 (h.atRules w hw)
    obtain ⟨masks, hmasks⟩ := Option.isSome_iff_exists.1 <| isSome_mapOfPart?.2 fun w hw =>
      (isSome_masksOfJson? (everywhere_part? hv hw)).2 (h.masks w hw)
    obtain ⟨topics, htopics⟩ := Option.isSome_iff_exists.1 <| isSome_mapOfPart?.2 fun w hw =>
      isSome_topicsOfJson?.2 (h.topics w hw)
    exact ⟨⟨styles, atRules, masks, topics⟩, h.parts, hstyles, hatRules, hmasks, htopics⟩

theorem describes_of_ofJson? {v : Json} (hv : v.Everywhere fun w => ∀ k, w = .int k → FitsWord k)
    {e : Extraction} (h : ofJson? v = some e) : Describes v e := by
  obtain ⟨-, hstyles, hatRules, hmasks, htopics⟩ := ofJson?_eq_some_iff.1 h
  exact {
    styles := partDescribes_of_mapOfPart? hstyles fun _ _ => describes_stylesOfJson?
    atRules := partDescribes_of_mapOfPart? hatRules fun _ _ => describes_atRulesOfJson?
    masks := partDescribes_of_mapOfPart? hmasks fun _ hw =>
      describes_masksOfJson? (everywhere_part? hv hw)
    topics := partDescribes_of_mapOfPart? htopics fun _ _ => describes_topicsOfJson? }

theorem partDescribes_unique {R : Json → OrderedMap α → Prop} (hR : Relator.RightUnique R)
    {v : Option Json} {m n : OrderedMap α} (hm : PartDescribes R v m) (hn : PartDescribes R v n) :
    m = n := by
  cases v with
  | none => exact hm.trans hn.symm
  | some w => exact hR hm hn

theorem Describes.unique {v : Json} {e e' : Extraction} (h : Describes v e) (h' : Describes v e') :
    e = e' := by
  have hvalue : Relator.RightUnique fun w (p : PropertyValue) => p = .ofJson w :=
    fun _ _ _ hp hq => hp.trans hq.symm
  have hcondition : Relator.RightUnique fun w (c : Condition) => w = c.toJson := by
    intro w c d hc hd
    rw [← conditionOfJson?_eq_some_iff] at hc hd
    exact Option.some.inj (hc.symm.trans hd)
  have hmask : Relator.RightUnique fun w (mask : UInt64) => w = Json.int mask.toNat := by
    intro w a b ha hb
    exact UInt64.toNat_inj.1 (Int.ofNat.inj (Json.int.inj (ha.symm.trans hb)))
  have htopic : Relator.RightUnique fun w (s : String) => w = Json.string s :=
    fun _ _ _ hs ht => Json.string.inj (hs.symm.trans ht)
  have hstyles := partDescribes_unique
    (rightUnique_describesMap (rightUnique_describesMap hvalue)) h.styles h'.styles
  have hatRules := partDescribes_unique (rightUnique_describesMap
    (rightUnique_describesList (rightUnique_describesList hcondition))) h.atRules h'.atRules
  have hmasks := partDescribes_unique (rightUnique_describesMap hmask) h.masks h'.masks
  have htopics := partDescribes_unique
    (rightUnique_describesMap (rightUnique_describesList htopic)) h.topics h'.topics
  cases e
  cases e'
  simp_all

/-- **The language of extractions.** A text that says a JSON value is read as an extraction if and
only if the value has the shape of one, and then as the extraction that the value describes. -/
theorem read_eq_ok_iff {text : String} {v : Json} (h : Says text v) :
    ((∃ e, read text = .ok e) ↔ HasShape v) ∧
      ∀ e, read text = .ok e ↔ HasShape v ∧ Describes v e := by
  have hv := (fitsWord_yields maxOpen).run h
  have hread : ∀ e, read text = .ok e ↔ ofJson? v = some e := by
    intro e
    rw [← toOption_read h, toOption_eq_some]
  have hshape := exists_ofJson?_iff hv
  simp only [hread]
  refine ⟨hshape, fun e => ⟨fun he => ⟨hshape.1 ⟨e, he⟩, describes_of_ofJson? hv he⟩, ?_⟩⟩
  rintro ⟨he, hdescribes⟩
  obtain ⟨e', he'⟩ := hshape.2 he
  rw [he', (describes_of_ofJson? hv he').unique hdescribes]

/-- The text of a value with a property that is repeated, and a member that is passed over. -/
def repeatedText : String :=
  "\x7b\"styles\":\x7b\"a\":\x7b\"p\":1,\"q\":2,\"p\":3\x7d\x7d,\"id\":0\x7d"

/-- A property that is repeated has its first place and its last value. -/
theorem read_eq_ok_iff_repeated :
    ∃ e record, read repeatedText = .ok e ∧ e.styles.get? "a" = some record ∧
      record.keys = ["p", "q"] := by
  have hsays : Says repeatedText (.object [("styles", .object [("a",
      .object [("p", .int 1), ("q", .int 2), ("p", .int 3)])]), ("id", .int 0)]) :=
    eq_ok_of_any_beq (by simp [Json.HasNoFloats, Everywhere, MembersEverywhere]) (by decide +kernel)
  obtain ⟨e, hread⟩ : ∃ e, read repeatedText = .ok e :=
    exists_eq_ok_of_isSome (by decide +kernel)
  obtain ⟨-, hdescribes⟩ := ((read_eq_ok_iff hsays).2 e).1 hread
  have hselector := hdescribes.styles.2 "a"
  cases hget : e.styles.get? "a" with
  | none =>
    rw [hget] at hselector
    cases hselector
  | some record =>
    rw [hget] at hselector
    cases hselector with
    | some hrecord => exact ⟨e, record, hread, hget, hrecord.1⟩

end StyleModule.Extraction
