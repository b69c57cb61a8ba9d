import StyleModule.Proofs.Exports
import StyleModule.Proofs.Text.Identifier
import StyleModule.Proofs.Text.Lines

/-!
# Characters of expressions

Which characters stand in an expression is decided by its strings alone: all else is printable ASCII
and no blank. So an export is free of some characters that are not printable just if what is written
for each of its strings is (`Extraction.isFreeOf_exports`). In a string between quotes the first 32
characters never stand for themselves and all other characters that are not printable do
(`Text.Quoted.isFreeOf_double`).
-/

namespace StyleModule

open Text

variable {p : Char → Bool}

/-! ### Numbers -/

theorem Text.isPrintable_of_continuesName {c : Char} (h : ContinuesName c) : isPrintable c := by
  have hrange : ∀ least greatest : Char, 0x20 ≤ least.toNat → greatest.toNat < 0x7f →
      least ≤ c ∧ c ≤ greatest → isPrintable c := by
    intro least greatest hleast hgreatest hc
    simp only [isPrintable, Bool.and_eq_true, decide_eq_true_eq]
    exact ⟨Nat.le_trans hleast hc.1, Nat.lt_of_le_of_lt hc.2 hgreatest⟩
  rcases h with (hc | hc | rfl | rfl) | hc
  · exact hrange _ _ (by decide) (by decide) hc
  · exact hrange _ _ (by decide) (by decide) hc
  · decide
  · decide
  · exact hrange _ _ (by decide) (by decide) hc

theorem Text.isFreeOf_toDigits (hp : SparesPrintable p) (n : Nat) :
    IsFreeOf p (Nat.toDigits 10 n) := by
  intro c hc
  have hdigit := Json.Numeral.isDigit_of_mem_toDigits c hc
  exact hp c (isPrintable_of_continuesName (.inr (isDigit_iff.1 hdigit)))

theorem Json.isFreeOf_intText (hp : SparesPrintable p) (n : Int) : IsFreeOf p (Json.intText n) := by
  cases n with
  | ofNat n => exact isFreeOf_toDigits hp n
  | negSucc n =>
    have hsign : p '-' = false := hp _ (by decide)
    simp [Json.intText, isFreeOf_toDigits hp, hsign]

namespace Decimal.Notation

theorem isFreeOf_replicate (hp : SparesPrintable p) (n : Nat) :
    IsFreeOf p (List.replicate n '0') := by
  intro c hc
  rw [List.eq_of_mem_replicate hc]
  exact hp _ (by decide)

theorem isFreeOf_positional (hp : SparesPrintable p) {ds : List Char} (h : IsFreeOf p ds)
    (place : Int) : IsFreeOf p (positional ds place) := by
  have htake : IsFreeOf p (ds.take (place.toNat + 1)) := h.of_subset (List.take_subset _ _)
  have hdrop : IsFreeOf p (ds.drop (place.toNat + 1)) := h.of_subset (List.drop_subset _ _)
  have hzero : p '0' = false := hp _ (by decide)
  have hpoint : p '.' = false := hp _ (by decide)
  unfold positional
  split_ifs
  · simp [isFreeOf_replicate hp, h, hzero, hpoint]
  · dsimp only
    split_ifs <;> simp [isFreeOf_replicate hp, htake, hdrop, hzero, hpoint]

theorem isFreeOf_scientific (hp : SparesPrintable p) {ds : List Char} (h : IsFreeOf p ds)
    (place : Int) : IsFreeOf p (scientific ds place) := by
  have htake : IsFreeOf p (ds.take 1) := h.of_subset (List.take_subset _ _)
  have hdrop : IsFreeOf p ds.tail := h.of_subset (List.tail_sublist _).subset
  have hpoint : p '.' = false := hp _ (by decide)
  have hpower : p 'e' = false := hp _ (by decide)
  have hminus : p '-' = false := hp _ (by decide)
  have hplus : p '+' = false := hp _ (by decide)
  unfold scientific
  dsimp only
  split_ifs <;> simp [isFreeOf_toDigits hp, htake, hdrop, hpoint, hpower, hminus, hplus]

theorem isFreeOf_write (hp : SparesPrintable p) (f : Notation) (x : Float) :
    IsFreeOf p (f.write x) := by
  have hdigits : ∀ d, IsFreeOf p (f.digitsAt d) := by
    intro d
    unfold digitsAt
    dsimp only
    split_ifs
    · exact isFreeOf_positional hp (isFreeOf_toDigits hp _) _
    · exact isFreeOf_scientific hp (isFreeOf_toDigits hp _) _
  have hsign : IsFreeOf p ['-'] := hp.isFreeOf (by decide)
  have hzero : IsFreeOf p ['0', '.', '0'] := hp.isFreeOf (by decide)
  unfold write
  dsimp only
  rw [isFreeOf_append]
  constructor
  · split_ifs
    · exact hsign
    · exact isFreeOf_nil
  · split_ifs
    · exact hzero
    · exact hdigits _

end Decimal.Notation

/-! ### Strings -/

namespace Text.Quoted

theorem isFreeOf_numberEscape (hp : SparesPrintable p) (c : Char) :
    IsFreeOf p (numberEscape c) := by
  have hdigit : ∀ d, d < 16 → isPrintable (Nat.digitChar d) := by decide
  have hmod : ∀ m, p (Nat.digitChar (m % 16)) = false :=
    fun m => hp _ (hdigit _ (Nat.mod_lt m (by decide)))
  have hbackslash : p '\\' = false := hp _ (by decide)
  have hu : p 'u' = false := hp _ (by decide)
  simp [numberEscape, fourHexDigits, hmod, hbackslash, hu]

/-- A character stands for itself between double quotes, unless it is one of the first 32. -/
theorem isFreeOf_doubleEscape (hp : SparesPrintable p) (c : Char) :
    IsFreeOf p (doubleEscape c) ↔ (0x20 ≤ c.toNat → p c = false) := by
  -- An escape of two characters is printable, and so is what it stands for, or below the space.
  have htwo : ∀ d, p d = false → IsFreeOf p ['\\', d] := fun d hd => by
    simp [hd, hp '\\' (by decide)]
  unfold doubleEscape
  split_ifs with hquote hbackslash hb hf hn hr ht hcontrol
  iterate 2
    subst c
    exact iff_of_true (htwo _ (hp _ (by decide))) fun _ => hp _ (by decide)
  iterate 5
    subst c
    exact iff_of_true (htwo _ (hp _ (by decide))) fun h => absurd h (by decide)
  · exact iff_of_true (isFreeOf_numberEscape hp c) fun h => absurd h (Nat.not_le.2 hcontrol)
  · simp [Nat.not_lt.1 hcontrol]

theorem isFreeOf_singleEscape (hp : SparesPrintable p) (c : Char) :
    IsFreeOf p (singleEscape c) ↔
      (¬(c.toNat < 0x20 ∨ 0x7f ≤ c.toNat ∧ c.toNat < 0xa0) → p c = false) := by
  have htwo : ∀ d, p d = false → IsFreeOf p ['\\', d] := fun d hd => by
    simp [hd, hp '\\' (by decide)]
  unfold singleEscape
  split_ifs with hbackslash hquote hn hr hcontrol
  iterate 2
    subst c
    exact iff_of_true (htwo _ (hp _ (by decide))) fun _ => hp _ (by decide)
  iterate 2
    subst c
    exact iff_of_true (htwo _ (hp _ (by decide))) fun h => absurd (.inl (by decide)) h
  · exact iff_of_true (isFreeOf_numberEscape hp c) fun h => absurd hcontrol h
  · simp [hcontrol]

theorem isFreeOf_double (hp : SparesPrintable p) (s : String) :
    IsFreeOf p (double s) ↔ ∀ c ∈ s.toList, 0x20 ≤ c.toNat → p c = false := by
  have hquote : p '"' = false := hp _ (by decide)
  simp [double, isFreeOf_flatMap, isFreeOf_doubleEscape hp, hquote]

theorem isFreeOf_single (hp : SparesPrintable p) (s : String) :
    IsFreeOf p (single s) ↔
      ∀ c ∈ s.toList, ¬(c.toNat < 0x20 ∨ 0x7f ≤ c.toNat ∧ c.toNat < 0xa0) → p c = false := by
  have hquote : p '\'' = false := hp _ (by decide)
  simp only [single, isFreeOf_cons, isFreeOf_append, isFreeOf_flatMap, isFreeOf_singleEscape hp,
    hquote, isFreeOf_nil, true_and, and_true]

theorem isFreeOf_isLineBreak_double (s : String) : IsFreeOf isLineBreak (double s) :=
  (isFreeOf_double sparesPrintable_isLineBreak s).2 fun _ _ hc => isLineBreak_eq_false hc

theorem isFreeOf_isLineBreak_single (s : String) : IsFreeOf isLineBreak (single s) :=
  (isFreeOf_single sparesPrintable_isLineBreak s).2 fun _ _ hc =>
    isLineBreak_eq_false (Nat.not_lt.1 fun h => hc (.inl h))

end Text.Quoted

/-! ### Strings of values -/

/-- A property holds of all strings of a JSON value, among which are the names of members. -/
def Json.EveryString (q : String → Prop) (v : Json) : Prop :=
  v.Everywhere fun
    | .string s => q s
    | .object ms => ∀ m ∈ ms, q m.1
    | _ => True

/-- A property holds of the strings of a value, apart from names of members. -/
def PropertyValue.EveryString (q : String → Prop) : PropertyValue → Prop
  | .literal l => l.json.EveryString q
  | .member _ => True

/-- One property holds of all keys of a map and another one of all its values. -/
def OrderedMap.EveryString {α : Type} (q : String → Prop) (P : α → Prop) (m : OrderedMap α) :
    Prop :=
  ∀ e ∈ m.entries, q e.1 ∧ P e.2

/-- A property holds of all strings of an extraction: its selectors and properties, its conditions
and topics, and the strings in literals. -/
structure Extraction.EveryString (q : String → Prop) (e : Extraction) : Prop where
  /-- The strings of the declarations. -/
  styles : e.styles.EveryString q (OrderedMap.EveryString q (PropertyValue.EveryString q))
  /-- The strings of the conditions. -/
  atRules : e.atRules.EveryString q fun groups =>
    ∀ group ∈ groups, ∀ c ∈ group, q c.kind ∧ q c.argument
  /-- The selectors of the masks. -/
  masks : e.masks.EveryString q fun _ => True
  /-- The strings of the topics. -/
  topics : e.topics.EveryString q fun topics => ∀ topic ∈ topics, q topic

theorem Json.everyString_of_forall {q : String → Prop} (h : ∀ s, q s) (v : Json) :
    v.EveryString q := by
  induction v using Json.induction with
  | scalar v hv =>
    cases hv using Json.IsScalar.cases with
    | string s => exact h s
    | _ => trivial
  | array vs ih => exact everywhere_array.2 ⟨trivial, ih⟩
  | object ms ih => exact everywhere_object.2 ⟨fun m _ => h m.1, ih⟩

theorem Extraction.everyString_of_forall {q : String → Prop} (h : ∀ s, q s) (e : Extraction) :
    e.EveryString q where
  styles := fun s _ => ⟨h s.1, fun d _ => ⟨h d.1, by
    cases d.2 with
    | literal l => exact l.json.everyString_of_forall h
    | member name => trivial⟩⟩
  atRules := fun s _ => ⟨h s.1, fun _ _ c _ => ⟨h c.kind, h c.argument⟩⟩
  masks := fun s _ => ⟨h s.1, trivial⟩
  topics := fun s _ => ⟨h s.1, fun topic _ => h topic⟩

/-! ### Expressions -/

namespace Expression

theorem isFreeOf_identifier (hp : SparesPrintable p) {name : String} (h : isIdentifier name) :
    IsFreeOf p name.toList :=
  fun c hc => hp c (isPrintable_of_continuesName ((isIdentifier_iff.1 h).continuesName c hc))

theorem isFreeOf_keyText (hp : SparesPrintable p) (name : String) :
    IsFreeOf p (keyText name) ↔ IsFreeOf p (Quoted.double name) := by
  have hcolon : p ':' = false := hp _ (by decide)
  unfold keyText
  split_ifs with h
  · have hname := isFreeOf_identifier hp h
    have hdouble := (Quoted.isFreeOf_double hp name).2 fun c hc _ => hname c hc
    simp [hname, hdouble, hcolon]
  · simp [hcolon]

theorem isFreeOf_objectText (hp : SparesPrintable p) {ms : List (String × List Char)} :
    IsFreeOf p (objectText ms) ↔ ∀ m ∈ ms, IsFreeOf p (Quoted.double m.1) ∧ IsFreeOf p m.2 := by
  have hopen : p '\x7b' = false := hp _ (by decide)
  have hclose : p '\x7d' = false := hp _ (by decide)
  have hcomma : p ',' = false := hp _ (by decide)
  simp only [objectText, isFreeOf_cons, isFreeOf_append, isFreeOf_commaSeparated hcomma,
    List.forall_mem_map, isFreeOf_keyText hp, hopen, hclose, isFreeOf_nil, true_and, and_true]

theorem isFreeOf_arrayText (hp : SparesPrintable p) {ts : List (List Char)} :
    IsFreeOf p (arrayText ts) ↔ ∀ t ∈ ts, IsFreeOf p t := by
  have hopen : p '[' = false := hp _ (by decide)
  have hclose : p ']' = false := hp _ (by decide)
  have hcomma : p ',' = false := hp _ (by decide)
  simp [arrayText, isFreeOf_commaSeparated hcomma, hopen, hclose]

theorem isFreeOf_ofJson (hp : SparesPrintable p) (v : Json) :
    IsFreeOf p (ofJson v) ↔ v.EveryString fun s => IsFreeOf p (Quoted.double s) := by
  induction v using Json.induction with
  | scalar v hv =>
    cases hv using Json.IsScalar.cases with
    | null => exact iff_of_true (hp.isFreeOf (by decide)) trivial
    | bool b => exact iff_of_true (hp.isFreeOf (by cases b <;> decide)) trivial
    | int n => exact iff_of_true (Json.isFreeOf_intText hp n) trivial
    | float x => exact iff_of_true (Decimal.Notation.isFreeOf_write hp _ x) trivial
    | string s => exact Iff.rfl
  | array vs ih =>
    rw [ofJson_array, isFreeOf_arrayText hp, List.forall_mem_map, Json.EveryString,
      Json.everywhere_array, true_and]
    exact forall₂_congr ih
  | object ms ih =>
    rw [ofJson_object, isFreeOf_objectText hp, List.forall_mem_map, Json.EveryString,
      Json.everywhere_object, ← forall₂_and]
    exact forall₂_congr fun m hm => and_congr_right fun _ => ih m hm

end Expression

/-! ### Exports -/

namespace Extraction

open Expression

variable {α : Type} {e : Extraction}

theorem isFreeOf_valueText (hp : SparesPrintable p) {selector property : String}
    {value : PropertyValue} {t : List Char} (h : valueText selector property value = .ok t) :
    IsFreeOf p t ↔ value.EveryString fun s => IsFreeOf p (Quoted.double s) := by
  cases value with
  | literal l =>
    cases h
    exact isFreeOf_ofJson hp l.json
  | member name =>
    rw [valueText] at h
    split_ifs at h with hname
    cases h
    refine iff_of_true (isFreeOf_append.2 ⟨?_, isFreeOf_identifier hp hname⟩) trivial
    exact hp.isFreeOf (by decide)

theorem forall_iff_of_forall₂ {β : Type} {A : α → Prop} {B : β → Prop} {as : List α} {bs : List β}
    (h : List.Forall₂ (fun a b => A a ↔ B b) as bs) : (∀ a ∈ as, A a) ↔ ∀ b ∈ bs, B b := by
  induction h with
  | nil => simp
  | cons hab _ ih => rw [List.forall_mem_cons, List.forall_mem_cons, hab, ih]

/-- The characters of an object are decided by its keys and its values, if each of them can be
written. -/
theorem isFreeOf_objectText_of_mapM (hp : SparesPrintable p) {m : OrderedMap α}
    {text : String → α → Except Problem (List Char)} {ms : List (String × List Char)} {P : α → Prop}
    (h : m.entries.mapM (fun e => do return (e.1, ← text e.1 e.2)) = .ok ms)
    (htext : ∀ key a t, text key a = .ok t → (IsFreeOf p t ↔ P a)) :
    IsFreeOf p (objectText ms) ↔ m.EveryString (fun s => IsFreeOf p (Quoted.double s)) P := by
  rw [isFreeOf_objectText hp]
  refine forall_iff_of_forall₂ (forall₂_members_of_mapM h fun e _ t ht => ?_)
  exact and_congr_right fun _ => htext e.1 e.2 t ht

theorem isFreeOf_stylesText (hp : SparesPrintable p) {t : List Char} (h : e.stylesText = .ok t) :
    IsFreeOf p t ↔ e.styles.EveryString (fun s => IsFreeOf p (Quoted.double s))
      (OrderedMap.EveryString (fun s => IsFreeOf p (Quoted.double s))
        (PropertyValue.EveryString fun s => IsFreeOf p (Quoted.double s))) := by
  obtain ⟨ms, hms, h⟩ := Json.bind_eq_ok.1 h
  cases h
  refine isFreeOf_objectText_of_mapM hp hms fun selector record t ht => ?_
  obtain ⟨ns, hns, ht⟩ := Json.bind_eq_ok.1 ht
  cases ht
  exact isFreeOf_objectText_of_mapM hp hns fun property value t ht => isFreeOf_valueText hp ht

theorem isFreeOf_mapText (hp : SparesPrintable p) {f : α → List Char} {P : α → Prop}
    (h : ∀ a, IsFreeOf p (f a) ↔ P a) (m : OrderedMap α) :
    IsFreeOf p (mapText f m) ↔ m.EveryString (fun s => IsFreeOf p (Quoted.double s)) P := by
  rw [mapText, isFreeOf_objectText hp, List.forall_mem_map]
  exact forall₂_congr fun e _ => and_congr_right fun _ => h e.2

theorem isFreeOf_arrayText_map (hp : SparesPrintable p) {f : α → List Char} {P : α → Prop}
    (h : ∀ a, IsFreeOf p (f a) ↔ P a) (as : List α) :
    IsFreeOf p (arrayText (as.map f)) ↔ ∀ a ∈ as, P a := by
  rw [isFreeOf_arrayText hp, List.forall_mem_map]
  exact forall₂_congr fun a _ => h a

theorem isFreeOf_conditionText (hp : SparesPrintable p) (c : Condition) :
    IsFreeOf p (conditionText c) ↔
      IsFreeOf p (Quoted.double c.kind) ∧ IsFreeOf p (Quoted.double c.argument) := by
  simp [conditionText, isFreeOf_arrayText hp]

theorem isFreeOf_stylesExport (hp : SparesPrintable p) (options : ExportOptions) {t : List Char} :
    IsFreeOf p (stylesExport options t) ↔ IsFreeOf p t := by
  have hbefore : IsFreeOf p "StyleSheet.create(".toList := hp.isFreeOf (by decide)
  have hafter : IsFreeOf p [')'] := hp.isFreeOf (by decide)
  unfold stylesExport
  split_ifs
  · rw [isFreeOf_append, isFreeOf_append, and_iff_left hafter, and_iff_right hbefore]
  · exact Iff.rfl

/-- **What stands in the exports is decided by the strings of the extraction.** They are free of
some characters that are not printable just if what is written for each string is. -/
theorem isFreeOf_exports (hp : SparesPrintable p) {options : ExportOptions} {x : Exports}
    (h : e.exports options = .ok x) :
    (IsFreeOf p x.styles.toList ∧ IsFreeOf p x.atRules.toList ∧ IsFreeOf p x.masks.toList ∧
      IsFreeOf p x.topics.toList) ↔ e.EveryString fun s => IsFreeOf p (Quoted.double s) := by
  obtain ⟨t, ht, h⟩ := Json.bind_eq_ok.1 h
  cases h
  have hstyles := (isFreeOf_stylesExport hp options).trans (isFreeOf_stylesText hp ht)
  have hatRules := isFreeOf_mapText hp (isFreeOf_arrayText_map hp
    (isFreeOf_arrayText_map hp (isFreeOf_conditionText hp))) e.atRules
  have hmasks := isFreeOf_mapText hp
    (fun mask : UInt64 => iff_true_intro (isFreeOf_toDigits hp mask.toNat)) e.masks
  have htopics := isFreeOf_mapText hp
    (isFreeOf_arrayText_map hp fun topic => Iff.refl (IsFreeOf p (Quoted.double topic))) e.topics
  simp only [String.toList_ofList]
  rw [hstyles]
  constructor
  · rintro ⟨h₁, h₂, h₃, h₄⟩
    exact ⟨h₁, hatRules.1 h₂, hmasks.1 h₃, htopics.1 h₄⟩
  · rintro ⟨h₁, h₂, h₃, h₄⟩
    exact ⟨h₁, hatRules.2 h₂, hmasks.2 h₃, htopics.2 h₄⟩

end Extraction

end StyleModule
