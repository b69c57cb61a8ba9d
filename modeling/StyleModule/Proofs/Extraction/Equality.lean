import StyleModule.Proofs.Exports.Members
import StyleModule.Proofs.Extraction.Building
import StyleModule.Proofs.Extraction.Properties
import StyleModule.Proofs.Extraction.RoundTrip

/-!
# Extractions that are equal

Extractions are equal if their maps give the same selectors equal values, in whatever order. So the
properties in them have equal values (`Extraction.rel_value?_of_beq`), and the same values where
there are no floating point numbers (`Extraction.value?_eq_of_beq`): of these the two zeros are
equal and not the same.

What is added to equal extractions leaves them equal (`Extraction.addAll_beq`).
-/

namespace StyleModule

namespace PropertyValue

/-- A value has no floating point numbers. -/
def HasNoFloats (p : PropertyValue) : Prop := ∀ l, p = .literal l → l.json.HasNoFloats

theorem HasNoFloats.eq_of_beq {p q : PropertyValue} (hp : p.HasNoFloats) (h : p == q) : p = q := by
  cases p with
  | member name =>
    cases q with
    | member name' => rw [beq_iff_eq.1 (show (name == name') = true from h)]
    | literal l => cases h
  | literal l =>
    cases q with
    | member name => cases h
    | literal l' => rw [Literal.ext ((hp l rfl).eq_of_beq h)]

theorem member_iff_of_beq {p q : PropertyValue} (h : p == q) (name : String) :
    p = .member name ↔ q = .member name := by
  cases p <;> cases q <;> simp_all [BEq.beq, beq]

end PropertyValue

namespace Extraction

variable {a b : Extraction}

theorem beq_iff : a == b ↔
    a.styles == b.styles ∧ a.atRules == b.atRules ∧ a.masks == b.masks ∧ a.topics == b.topics := by
  change a.beq b ↔ _
  simp only [beq, Bool.and_eq_true, and_assoc]

/-! ### Properties -/

/-- Equal extractions give each property equal values, or none. -/
theorem rel_value?_of_beq (h : a == b) (selector property : String) :
    Option.Rel (fun p q => p == q) (a.value? selector property) (b.value? selector property) := by
  have hrecord := OrderedMap.beq_iff_get?.1 (beq_iff.1 h).1 selector
  unfold value?
  generalize a.styles.get? selector = x, b.styles.get? selector = y at hrecord
  cases hrecord with
  | none => exact .none
  | some hrecord => exact OrderedMap.beq_iff_get?.1 hrecord property

/-- Without floating point numbers the values are the same. -/
theorem value?_eq_of_beq (h : a == b) (hfloats : a.EveryLiteral Json.HasNoFloats)
    (selector property : String) : a.value? selector property = b.value? selector property := by
  have hrel := rel_value?_of_beq h selector property
  cases ha : a.value? selector property with
  | none =>
    rw [ha] at hrel
    generalize b.value? selector property = y at hrel
    cases hrel
    rfl
  | some p =>
    obtain ⟨record, hs, hd⟩ := mem_of_value? ha
    rw [ha] at hrel
    generalize b.value? selector property = y at hrel
    cases hrel with
    | some hpq =>
      have hp : p.HasNoFloats := fun l hl => hfloats _ hs _ hd l hl
      rw [hp.eq_of_beq hpq]

theorem mem_references_iff_value? {r : Reference} :
    r ∈ a.references ↔ a.value? r.selector r.property = some (.member r.name) := by
  rw [mem_references]
  constructor
  · rintro ⟨record, hs, hd⟩
    exact value?_of_mem hs hd
  · exact mem_of_value?

/-- Equal extractions have the same references. -/
theorem mem_references_of_beq (h : a == b) {r : Reference} :
    r ∈ a.references ↔ r ∈ b.references := by
  have hrel := rel_value?_of_beq h r.selector r.property
  simp only [mem_references_iff_value?]
  generalize a.value? r.selector r.property = x, b.value? r.selector r.property = y at hrel
  cases hrel with
  | none => exact Iff.rfl
  | some hpq =>
    rw [Option.some.injEq, Option.some.injEq]
    exact PropertyValue.member_iff_of_beq hpq r.name

end Extraction

/-! ### Additions -/

/-- Whether two additions are equal, where declarations are equal in any order. -/
def Addition.beq : Addition → Addition → Bool
  | record s r, record t q => s == t && r == q
  | conditions s g, conditions t h => s == t && g == h
  | mask s m, mask t n => s == t && m == n
  | topic s t, topic s' t' => s == s' && t == t'
  | _, _ => false

instance : BEq Addition := ⟨Addition.beq⟩

namespace Extraction

variable {a b : Extraction}

theorem eq_and_eq_of_beq {α β : Type} [BEq α] [LawfulBEq α] [BEq β] [LawfulBEq β] {a a' : α}
    {b b' : β} (h : (a == a' && b == b') = true) : a = a' ∧ b = b' := by
  rwa [Bool.and_eq_true, beq_iff_eq, beq_iff_eq] at h

/-- An addition leaves equal extractions equal. -/
theorem add_beq {x y : Addition} (hxy : x == y) (h : a == b) : a.add x == b.add y := by
  rw [beq_iff] at h ⊢
  obtain ⟨hstyles, hatRules, hmasks, htopics⟩ := h
  cases x with
  | record s r =>
    cases y with
    | record t q =>
      obtain ⟨hst, hrq⟩ := Bool.and_eq_true_iff.1 (show (s == t && r == q) = true from hxy)
      obtain rfl := beq_iff_eq.1 hst
      exact ⟨OrderedMap.insert_beq hrq hstyles s, hatRules, hmasks, htopics⟩
    | _ => cases hxy
  | conditions s g =>
    cases y with
    | conditions t g' =>
      obtain ⟨rfl, rfl⟩ := eq_and_eq_of_beq (show (s == t && g == g') = true from hxy)
      exact ⟨hstyles, OrderedMap.upsert_beq_self _ hatRules s, hmasks, htopics⟩
    | _ => cases hxy
  | mask s k =>
    cases y with
    | mask t k' =>
      obtain ⟨rfl, rfl⟩ := eq_and_eq_of_beq (show (s == t && k == k') = true from hxy)
      exact ⟨hstyles, hatRules, OrderedMap.upsert_beq_self _ hmasks s, htopics⟩
    | _ => cases hxy
  | topic s t =>
    cases y with
    | topic s' t' =>
      obtain ⟨rfl, rfl⟩ := eq_and_eq_of_beq (show (s == s' && t == t') = true from hxy)
      exact ⟨hstyles, hatRules, hmasks, OrderedMap.upsert_beq_self _ htopics s⟩
    | _ => cases hxy

/-- So does a run of them. -/
theorem addAll_beq {xs ys : List Addition} (hxs : xs == ys) (h : a == b) :
    a.addAll xs == b.addAll ys := by
  induction xs generalizing ys a b with
  | nil =>
    cases ys with
    | nil => exact h
    | cons y ys => cases hxs
  | cons x xs ih =>
    cases ys with
    | nil => cases hxs
    | cons y ys =>
      rw [List.cons_beq_cons, Bool.and_eq_true] at hxs
      have hrest := ih hxs.2 (add_beq hxs.1 h)
      exact hrest

end Extraction

end StyleModule
