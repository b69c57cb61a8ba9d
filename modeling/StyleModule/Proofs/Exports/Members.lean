import StyleModule.Exports
import StyleModule.Proofs.Outcome
import StyleModule.Proofs.Text.Identifier

/-!
# Which extractions have no exports

Exports cannot be written for members of the `StyleSheet` whose name is not an identifier, and for
nothing else. The first of them, in the order of the selectors and of the properties of each, is the
one that is reported (`Extraction.failure?_exports`), whatever comes after it and whatever else was
extracted (`Extraction.exports_eq_error_iff`).
-/

namespace StyleModule.Extraction

/-! ### References -/

/-- A member of the `StyleSheet` that a property takes its value from. -/
structure Reference where
  /-- The selector whose declarations it stands in. -/
  selector : String
  /-- The property. -/
  property : String
  /-- The name of the member. -/
  name : String
deriving DecidableEq

/-- The reference in a declaration, if it is one. -/
def reference? (selector : String) (declaration : String × PropertyValue) : Option Reference :=
  match declaration.2 with
  | .member name => some ⟨selector, declaration.1, name⟩
  | .literal _ => none

/-- All references, in the order of the selectors and of the properties of each. -/
def references (e : Extraction) : List Reference :=
  e.styles.entries.flatMap fun s => s.2.entries.filterMap (reference? s.1)

/-- The first reference whose name is not an identifier. -/
def improper? (e : Extraction) : Option Reference :=
  e.references.find? fun r => !Text.isIdentifier r.name

/-- The problem with a reference whose name is not an identifier. -/
def Reference.problem (r : Reference) : Problem := .notMember r.selector r.property r.name

/-- The name of a reference is none that a member can have. -/
def Reference.IsImproper (r : Reference) : Prop := ¬Text.IsName r.name

theorem Reference.isImproper_iff {r : Reference} :
    (!Text.isIdentifier r.name) = true ↔ r.IsImproper := by
  rw [IsImproper, ← Text.isIdentifier_iff, Bool.not_eq_true', Bool.not_eq_true]

theorem isFirst_isImproper_iff {e : Extraction} {r : Reference} :
    IsFirst Reference.IsImproper e.references r ↔ e.improper? = some r :=
  isFirst_iff_find? fun _ => Reference.isImproper_iff

theorem mem_references {e : Extraction} {r : Reference} :
    r ∈ e.references ↔ ∃ record, (r.selector, record) ∈ e.styles.entries ∧
      (r.property, .member r.name) ∈ record.entries := by
  simp only [references, List.mem_flatMap, List.mem_filterMap]
  constructor
  · rintro ⟨⟨selector, record⟩, hs, ⟨property, p⟩, hd, hr⟩
    cases p with
    | literal l => cases hr
    | member name =>
      cases hr
      exact ⟨record, hs, hd⟩
  · rintro ⟨record, hs, hd⟩
    exact ⟨_, hs, _, hd, rfl⟩

/-! ### Problems -/

theorem failure?_valueText (selector property : String) (p : PropertyValue) :
    failure? (valueText selector property p) =
      ((reference? selector (property, p)).filter fun r => !Text.isIdentifier r.name).map
        Reference.problem := by
  cases p with
  | literal l => rfl
  | member name =>
    rw [valueText]
    by_cases hname : Text.isIdentifier name <;>
      simp [hname, reference?, Option.filter, Reference.problem]

theorem findSome?_filter {α β γ : Type} (f : α → Option β) (p : β → Bool) (g : β → γ)
    (as : List α) :
    (as.findSome? fun a => ((f a).filter p).map g) = ((as.filterMap f).find? p).map g := by
  induction as with
  | nil => rfl
  | cons a as ih =>
    rw [List.findSome?_cons, ih, List.filterMap_cons]
    cases f a with
    | none => rfl
    | some b => by_cases hb : p b <;> simp [Option.filter, hb]

theorem failure?_recordText (selector : String) (record : StyleRecord) :
    failure? (recordText selector record) =
      ((record.entries.filterMap (reference? selector)).find?
        fun r => !Text.isIdentifier r.name).map Reference.problem := by
  rw [recordText, failure?_bind_pure, failure?_mapM, ← findSome?_filter]
  simp only [failure?_bind_pure, failure?_valueText]

theorem failure?_stylesText (e : Extraction) :
    failure? e.stylesText = e.improper?.map Reference.problem := by
  rw [stylesText, failure?_bind_pure, failure?_mapM, improper?, references, List.find?_flatMap,
    List.map_findSome?]
  simp only [failure?_bind_pure, failure?_recordText]
  rfl

/-- **Exports cannot be written just for an improper reference**, and the first one is the problem
that is reported. -/
theorem failure?_exports (e : Extraction) (options : ExportOptions) :
    failure? (e.exports options) = e.improper?.map Reference.problem :=
  (failure?_bind_pure e.stylesText _).trans e.failure?_stylesText

theorem exports_eq_error {e : Extraction} {options : ExportOptions} {problem : Problem} :
    e.exports options = .error problem ↔
      ∃ r, IsFirst Reference.IsImproper e.references r ∧ problem = r.problem := by
  rw [← failure?_eq_some_iff, failure?_exports, Option.map_eq_some_iff]
  simp only [isFirst_isImproper_iff, eq_comm]

theorem exists_exports_eq_error {e : Extraction} {options : ExportOptions} :
    (∃ problem, e.exports options = .error problem) ↔ ∃ r ∈ e.references, r.IsImproper := by
  rw [← exists_isFirst_iff fun _ => Reference.isImproper_iff]
  simp only [exports_eq_error]
  constructor
  · rintro ⟨_, r, hr, -⟩
    exact ⟨r, hr⟩
  · rintro ⟨r, hr⟩
    exact ⟨_, r, hr, rfl⟩

/-- **Which exports cannot be written, and for what.** They cannot just if a record has a reference
whose name is not of the form of names. The problem is the first such reference, in the order of the
selectors and of the properties of each; it depends neither on the options nor on what comes after
this reference, nor on anything but references before it. -/
theorem exports_eq_error_iff (e : Extraction) (options : ExportOptions) :
    ((∃ problem, e.exports options = .error problem) ↔
      ∃ selector record property name, (selector, record) ∈ e.styles.entries ∧
        (property, .member name) ∈ record.entries ∧ ¬Text.IsName name) ∧
    (∀ problem, e.exports options = .error problem ↔
      ∃ r, IsFirst (fun r => ¬Text.IsName r.name) e.references r ∧
        problem = .invalidValue r.selector r.property
          ("'" ++ r.name ++ "' is not a StyleSheet member")) ∧
    ∀ before r after, e.references = before ++ r :: after → (∀ q ∈ before, Text.IsName q.name) →
      ¬Text.IsName r.name → ∀ (e' : Extraction) options' after',
        e'.references = before ++ r :: after' → e'.exports options' = e.exports options := by
  refine ⟨?_, fun _ => exports_eq_error, ?_⟩
  · rw [exists_exports_eq_error]
    constructor
    · rintro ⟨r, hr, hname⟩
      obtain ⟨record, hs, hd⟩ := mem_references.1 hr
      exact ⟨_, record, _, _, hs, hd, hname⟩
    · rintro ⟨selector, record, property, name, hs, hd, hname⟩
      exact ⟨⟨selector, property, name⟩, mem_references.2 ⟨record, hs, hd⟩, hname⟩
  · intro before r after he hbefore hr e' options' after' he'
    have hproper : ∀ q ∈ before, ¬q.IsImproper := fun q hq => not_not_intro (hbefore q hq)
    rw [exports_eq_error.2 ⟨r, ⟨before, after, he, hr, hproper⟩, rfl⟩,
      exports_eq_error.2 ⟨r, ⟨before, after', he', hr, hproper⟩, rfl⟩]

/-- A literal that looks like a reference, and two references that are improper. -/
def twoImproper : Extraction :=
  empty.withRecord "box" (.ofList [
    ("shadow", .literal (.ofJson (.object [("styleSheet", .string "a b")]))),
    ("width", .member "1a"), ("height", .member "")])

theorem exports_eq_error_iff_twoImproper :
    twoImproper.exports {} =
        .error (.invalidValue "box" "width" "'1a' is not a StyleSheet member") ∧
      (twoImproper.withMask "box" 1).exports ⟨false⟩ = twoImproper.exports {} := by
  obtain ⟨-, hproblem, hrest⟩ := exports_eq_error_iff twoImproper {}
  have hname : ¬Text.IsName "1a" := by decide
  refine ⟨(hproblem _).2 ⟨⟨"box", "width", "1a"⟩, ⟨[], [⟨"box", "height", ""⟩], rfl, hname, ?_⟩,
    rfl⟩, hrest [] ⟨"box", "width", "1a"⟩ [⟨"box", "height", ""⟩] rfl ?_ hname _ _ _ rfl⟩
  · exact fun _ hq => absurd hq List.not_mem_nil
  · exact fun _ hq => absurd hq List.not_mem_nil

end StyleModule.Extraction
