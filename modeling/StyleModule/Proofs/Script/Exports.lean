import StyleModule.Proofs.Exports
import StyleModule.Proofs.Script.Meaning

/-!
# What exports mean to a script

The exports of an extraction always have values (`Exports.evaluate?`), if its numbers are whole.
They mean the extraction (`ExportValues.Mean`) only if it is preserved by what a script makes of
expressions (`Extraction.IsPreserved`): a key `__proto__` is lost wherever it is, and a whole number
that is no double becomes another one.

The styles are what is handed to `StyleSheet.create`, if they are.
-/

namespace StyleModule

open Expression Script Json

variable {α : Type}

/-- The values of the exports. -/
structure ExportValues where
  /-- The value of the styles. -/
  styles : Value
  /-- The value of the conditions. -/
  atRules : Value
  /-- The value of the masks. -/
  masks : Value
  /-- The value of the topics. -/
  topics : Value

/-- The values that a script gives to exports. -/
def Exports.evaluate? (options : ExportOptions) (x : Exports) : Option ExportValues := do
  let styles ← readWhole
    (if options.stylesheetCreate then readCreated readExpression else readExpression) x.styles
  let atRules ← readWhole readExpression x.atRules
  let masks ← readWhole readExpression x.masks
  let topics ← readWhole readExpression x.topics
  return { styles, atRules, masks, topics }

/-- Each export has its value by itself. -/
theorem Exports.evaluate?_eq_some {options : ExportOptions} {x : Exports} {b : ExportValues}
    (h : x.evaluate? options = some b) :
    readWhole (if options.stylesheetCreate then readCreated readExpression else readExpression)
        x.styles = some b.styles ∧ readWhole readExpression x.atRules = some b.atRules ∧
      readWhole readExpression x.masks = some b.masks ∧
      readWhole readExpression x.topics = some b.topics := by
  simp only [evaluate?, Option.bind_eq_bind, Option.bind_eq_some_iff, Option.pure_def] at h
  obtain ⟨styles, hstyles, atRules, hatRules, masks, hmasks, topics, htopics, h⟩ := h
  cases h
  exact ⟨hstyles, hatRules, hmasks, htopics⟩

/-! ### Meaning -/

namespace Script

/-- A value means a string. -/
def MeansString (s : String) (w : Value) : Prop := w = .string s

/-- A value means the value of a property. -/
def MeansProperty : PropertyValue → Value → Prop
  | .literal l, w => Means l.json w
  | .member name, w => w = .runtime name

/-- A value means a condition. -/
def MeansCondition (c : Condition) : Value → Prop := Lists MeansString [c.kind, c.argument]

/-- A value means a mask. -/
def MeansMask (mask : UInt64) (w : Value) : Prop :=
  ∃ x : Number, w = .number x ∧ x.toInt? = some (mask.toNat : Int)

end Script

/-- The values of exports mean an extraction. -/
structure ExportValues.Mean (b : ExportValues) (e : Extraction) : Prop where
  /-- The own keys are the selectors, and those of their declarations the properties. -/
  styles : Owns (fun record => Owns MeansProperty record.entries) e.styles.entries b.styles
  /-- The conditions stand in groups. -/
  atRules : Owns (Lists (Lists MeansCondition)) e.atRules.entries b.atRules
  /-- Each mask is the same number. -/
  masks : Owns MeansMask e.masks.entries b.masks
  /-- The topics are lists of strings. -/
  topics : Owns (Lists MeansString) e.topics.entries b.topics

/-- A map without the key that is lost, whose values are preserved. -/
def OrderedMap.IsPreserved (P : α → Prop) (m : OrderedMap α) : Prop :=
  prototypeName ∉ m.keys ∧ ∀ e ∈ m.entries, P e.2

/-- The value of a property is preserved. -/
def PropertyValue.IsPreserved : PropertyValue → Prop
  | .literal l => Script.IsPreserved l.json
  | .member _ => True

/-- Nothing of an extraction is lost to a script. -/
structure Extraction.IsPreserved (e : Extraction) : Prop where
  /-- No selector and no property is lost, and no literal. -/
  styles : e.styles.IsPreserved (OrderedMap.IsPreserved PropertyValue.IsPreserved)
  /-- No selector is lost. -/
  atRules : prototypeName ∉ e.atRules.keys
  /-- No selector is lost, and the masks are doubles. -/
  masks : e.masks.IsPreserved fun mask => IsDouble mask.toNat
  /-- No selector is lost. -/
  topics : prototypeName ∉ e.topics.keys

namespace Script

variable {R : α → Value → Prop} {P : α → Prop}

theorem meansIff_mapText {f : α → List Char} (h : ∀ a, MeansIff (f a) (R a) (P a))
    (m : OrderedMap α) :
    MeansIff (Extraction.mapText f m) (Owns R m.entries) (m.IsPreserved P) := by
  refine meansIff_objectText m.nodup ?_
  rw [List.forall₂_map_left_iff]
  exact List.forall₂_same.2 fun e _ => ⟨rfl, h e.2⟩

/-- A map means what was written if its values do, each of which can be written. -/
theorem meansIff_of_mapM {ε : Type} {m : OrderedMap α} {text : String → α → Except ε (List Char)}
    {ms : List (String × List Char)}
    (h : m.entries.mapM (fun e => do return (e.1, ← text e.1 e.2)) = .ok ms)
    (hitem : ∀ e ∈ m.entries, ∀ t, text e.1 e.2 = .ok t → MeansIff t (R e.2) (P e.2)) :
    MeansIff (objectText ms) (Owns R m.entries) (m.IsPreserved P) :=
  meansIff_objectText m.nodup
    (Extraction.forall₂_members_of_mapM h fun e he t ht => ⟨rfl, hitem e he t ht⟩)

/-- A list always means what was written if its items do. -/
theorem meansIff_arrayText_true {f : α → List Char} (h : ∀ a, MeansIff (f a) (R a) True)
    (as : List α) : MeansIff (arrayText (as.map f)) (Lists R as) True := by
  have hitems : List.Forall₂ (fun t a => MeansIff t (R a) True) (as.map f) as := by
    rw [List.forall₂_map_left_iff]
    exact List.forall₂_same.2 fun a _ => h a
  exact (meansIff_arrayText hitems).congr (fun _ => Iff.rfl) (by simp)

theorem meansIff_double (s : String) :
    MeansIff (Text.Quoted.double s) (MeansString s) True :=
  (evaluates_double s).meansIff rfl

theorem meansIff_conditionText (c : Condition) :
    MeansIff (Extraction.conditionText c) (MeansCondition c) True :=
  meansIff_arrayText_true meansIff_double [c.kind, c.argument]

theorem meansIff_mask (mask : UInt64) :
    MeansIff (Nat.toDigits 10 mask.toNat) (MeansMask mask) (IsDouble mask.toNat) := by
  refine ⟨_, evaluates_intText mask.toNat, ?_⟩
  have hmask : (Number.ofInt mask.toNat).toInt? = some (mask.toNat : Int) ↔ IsDouble mask.toNat :=
    Number.toInt?_ofInt_iff
  rw [← hmask]
  constructor
  · rintro ⟨_, ⟨⟩, hx⟩
    exact hx
  · intro hx
    exact ⟨_, rfl, hx⟩

theorem meansIff_valueText {selector property : String} {p : PropertyValue} {t : List Char}
    (h : Extraction.valueText selector property p = .ok t)
    (hp : ∀ l, p = .literal l → l.json.HasNoFloats) :
    MeansIff t (MeansProperty p) p.IsPreserved := by
  cases p with
  | literal l =>
    cases h
    exact meansIff_ofJson (hp l rfl) l.isCanonical.hasNoRepeats
  | member name =>
    rw [Extraction.valueText] at h
    split_ifs at h with hname
    cases h
    exact (evaluates_member hname).meansIff rfl

end Script

namespace Extraction

variable {e : Extraction}

/-! ### The four maps -/

theorem meansIff_stylesText {t : List Char} (h : e.stylesText = .ok t)
    (hfloats : e.EveryLiteral HasNoFloats) :
    MeansIff t (Owns (fun record => Owns MeansProperty record.entries) e.styles.entries)
      (e.styles.IsPreserved (OrderedMap.IsPreserved PropertyValue.IsPreserved)) := by
  obtain ⟨ms, hms, h⟩ := bind_eq_ok.1 h
  cases h
  refine meansIff_of_mapM hms fun s hs t ht => ?_
  obtain ⟨ns, hns, ht⟩ := bind_eq_ok.1 ht
  cases ht
  exact meansIff_of_mapM hns fun d hd t ht => meansIff_valueText ht (hfloats s hs d hd)

theorem isPreserved_true_iff {m : OrderedMap α} :
    m.IsPreserved (fun _ => True) ↔ prototypeName ∉ m.keys := by
  simp [OrderedMap.IsPreserved]

theorem meansIff_atRulesText :
    MeansIff e.atRulesText (Owns (Lists (Lists MeansCondition)) e.atRules.entries)
      (prototypeName ∉ e.atRules.keys) := by
  rw [← isPreserved_true_iff]
  exact meansIff_mapText (meansIff_arrayText_true (meansIff_arrayText_true meansIff_conditionText))
    _

theorem meansIff_masksText :
    MeansIff e.masksText (Owns MeansMask e.masks.entries)
      (e.masks.IsPreserved fun mask => IsDouble mask.toNat) :=
  meansIff_mapText meansIff_mask _

theorem meansIff_topicsText :
    MeansIff e.topicsText (Owns (Lists MeansString) e.topics.entries)
      (prototypeName ∉ e.topics.keys) := by
  rw [← isPreserved_true_iff]
  exact meansIff_mapText (meansIff_arrayText_true meansIff_double) _

/-! ### All exports -/

/-- **What exports mean to a script.** The exports of an extraction whose numbers are whole have
values, and they mean the extraction just if no key in it is `__proto__` and its numbers are
doubles. -/
theorem mean_iff_isPreserved {options : ExportOptions} {x : Exports}
    (h : e.exports options = .ok x) (hfloats : e.EveryLiteral HasNoFloats) :
    ∃ b, x.evaluate? options = some b ∧ (b.Mean e ↔ e.IsPreserved) := by
  obtain ⟨t, ht, h⟩ := bind_eq_ok.1 h
  cases h
  obtain ⟨styles, hstyles, hstylesIff⟩ := meansIff_stylesText ht hfloats
  obtain ⟨atRules, hatRules, hatRulesIff⟩ := meansIff_atRulesText (e := e)
  obtain ⟨masks, hmasks, hmasksIff⟩ := meansIff_masksText (e := e)
  obtain ⟨topics, htopics, htopicsIff⟩ := meansIff_topicsText (e := e)
  refine ⟨⟨styles, atRules, masks, topics⟩, ?_, ?_⟩
  · have hcreated := readsBack_stylesExport options hstyles.readsBack
    simp only [Exports.evaluate?, readWhole_ofList hcreated, readWhole_ofList hatRules.readsBack,
      readWhole_ofList hmasks.readsBack, readWhole_ofList htopics.readsBack]
    rfl
  · constructor
    · intro hmean
      exact ⟨hstylesIff.1 hmean.styles, hatRulesIff.1 hmean.atRules, hmasksIff.1 hmean.masks,
        htopicsIff.1 hmean.topics⟩
    · intro hpreserved
      exact ⟨hstylesIff.2 hpreserved.styles, hatRulesIff.2 hpreserved.atRules,
        hmasksIff.2 hpreserved.masks, htopicsIff.2 hpreserved.topics⟩

/-- A literal with a negative number, and a mask of 54 bits. -/
def boxWithMask : Extraction :=
  (ofLiteral (.ofJson (.object [("a b", .array [.int (-1), .null])]))).withMask "box"
    9007199254740992

theorem mean_iff_isPreserved_mask :
    ∃ b, (Exports.mk "StyleSheet.create(\x7bbox:\x7bshadow:\x7b\"a b\":[-1,null]\x7d\x7d\x7d)"
        "\x7b\x7d" "\x7bbox:9007199254740992\x7d" "\x7b\x7d").evaluate? ⟨true⟩ = some b ∧
      b.Mean boxWithMask := by
  have hliteral : (Literal.ofJson (.object [("a b", .array [.int (-1), .null])])).json =
      .object [("a b", .array [.int (-1), .null])] := rfl
  have hfloats : boxWithMask.EveryLiteral HasNoFloats := by
    refine everyLiteral_ofLiteral.2 ?_
    rw [hliteral]
    simp [HasNoFloats, Everywhere, ItemsEverywhere, MembersEverywhere]
  have hexports : boxWithMask.exports ⟨true⟩ = .ok ⟨
      "StyleSheet.create(\x7bbox:\x7bshadow:\x7b\"a b\":[-1,null]\x7d\x7d\x7d)", "\x7b\x7d",
      "\x7bbox:9007199254740992\x7d", "\x7b\x7d"⟩ := Json.toOption_eq_some.1 (by decide +kernel)
  obtain ⟨b, hb, hmean⟩ := mean_iff_isPreserved hexports hfloats
  refine ⟨b, hb, hmean.2 ⟨⟨by decide, ?_⟩, by decide, ⟨by decide, ?_⟩, by decide⟩⟩
  · intro s hs
    obtain rfl := List.mem_singleton.1 hs
    refine ⟨by decide, fun d hd => ?_⟩
    obtain rfl := List.mem_singleton.1 hd
    have hone : IsDouble 1 := isDouble_of_lt (by decide)
    simpa [PropertyValue.IsPreserved, hliteral, Script.IsPreserved, Everywhere, ItemsEverywhere,
      MembersEverywhere, prototypeName] using hone
  · intro s hs
    obtain rfl := List.mem_singleton.1 hs
    exact ⟨1, 53, by decide, by decide, by decide⟩

/-- The mask of a selector `__proto__` is lost. -/
theorem not_mean_prototype :
    ¬∀ (e : Extraction) options x, e.exports options = .ok x → e.EveryLiteral HasNoFloats →
      ∃ b, x.evaluate? options = some b ∧ b.Mean e := by
  intro h
  obtain ⟨b, hb, hmean⟩ := h (empty.withMask prototypeName 1) ⟨true⟩
    ⟨"StyleSheet.create(\x7b\x7d)", "\x7b\x7d", "\x7b__proto__:1\x7d", "\x7b\x7d"⟩
    (Json.toOption_eq_some.1 (by decide +kernel)) (by intro s hs; cases hs)
  obtain ⟨-, -, hvalue, -⟩ := Exports.evaluate?_eq_some hb
  obtain ⟨masks, hmasks, hiff⟩ := meansIff_masksText (e := empty.withMask prototypeName 1)
  have htext : String.ofList (empty.withMask prototypeName 1).masksText =
      "\x7b__proto__:1\x7d" := by decide +kernel
  obtain rfl : masks = b.masks := by
    rw [← htext, readWhole_ofList hmasks.readsBack] at hvalue
    exact Option.some.inj hvalue
  exact (hiff.1 hmean.masks).1 List.mem_cons_self

end Extraction

end StyleModule
