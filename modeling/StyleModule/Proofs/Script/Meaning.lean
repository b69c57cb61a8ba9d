import StyleModule.Proofs.Json.Tree
import StyleModule.Proofs.Script.Evaluation

/-!
# Values that mean what was written

A script's value means a JSON value (`Script.Means`) if it has the same own keys at every place, and
the same strings and whole numbers. The expression for a JSON value has a value if its numbers are
whole, but this means the JSON value only if no object has a key `__proto__` and all numbers are
doubles (`Script.meansIff_ofJson`).
-/

namespace StyleModule.Script

open Expression

variable {α β γ : Type}

/-! ### Values for containers -/

/-- A value is a list with one item for each one of the given. -/
def Lists (R : α → Value → Prop) (as : List α) (w : Value) : Prop :=
  ∃ ws, w = .array ws ∧ List.Forall₂ R as ws

/-- A value is an object that has the given names as its own keys, in order and no others. -/
def Owns (R : α → Value → Prop) (es : List (String × α)) (w : Value) : Prop :=
  ∃ own, w = .object own ∧ es.map Prod.fst = own.map Prod.fst ∧
    List.Forall₂ R (es.map Prod.snd) (own.map Prod.snd)

/-- A value means a JSON value. -/
inductive Means : Json → Value → Prop
  | null : Means .null .null
  | bool (b : Bool) : Means (.bool b) (.bool b)
  | int {k : Int} {x : Number} : x.toInt? = some k → Means (.int k) (.number x)
  | string (s : String) : Means (.string s) (.string s)
  | array {vs : List Json} {ws : List Value} : List.Forall₂ Means vs ws →
      Means (.array vs) (.array ws)
  | object {ms : List (String × Json)} {own : List (String × Value)} :
      ms.map Prod.fst = own.map Prod.fst →
      List.Forall₂ Means (ms.map Prod.snd) (own.map Prod.snd) → Means (.object ms) (.object own)

theorem means_int_iff {k : Int} {x : Number} : Means (.int k) (.number x) ↔ x.toInt? = some k := by
  refine ⟨fun h => ?_, .int⟩
  cases h with
  | int h => exact h

theorem means_array_iff {vs : List Json} {w : Value} : Means (.array vs) w ↔ Lists Means vs w := by
  constructor
  · rintro (_ | _ | _ | _ | h)
    exact ⟨_, rfl, h⟩
  · rintro ⟨ws, rfl, h⟩
    exact .array h

theorem means_object_iff {ms : List (String × Json)} {w : Value} :
    Means (.object ms) w ↔ Owns Means ms w := by
  constructor
  · intro h
    cases h with
    | object hnames hvalues => exact ⟨_, rfl, hnames, hvalues⟩
  · rintro ⟨own, rfl, hnames, hvalues⟩
    exact .object hnames hvalues

/-! ### What a text means -/

/-- A text has a value, and it is related to what was written just under a condition. -/
def MeansIff (t : List Char) (R : Value → Prop) (P : Prop) : Prop :=
  ∃ w, Evaluates t w ∧ (R w ↔ P)

/-- What always means what was written. -/
theorem Evaluates.meansIff {t : List Char} {w : Value} (h : Evaluates t w) {R : Value → Prop}
    (hR : R w) : MeansIff t R True :=
  ⟨w, h, iff_true_intro hR⟩

theorem MeansIff.congr {t : List Char} {R S : Value → Prop} {P Q : Prop} (h : MeansIff t R P)
    (hR : ∀ w, S w ↔ R w) (hP : P ↔ Q) : MeansIff t S Q := by
  obtain ⟨w, ht, hw⟩ := h
  exact ⟨w, ht, (hR w).trans (hw.trans hP)⟩

/-- What is there for each pair is there as a list. -/
theorem exists_forall₂ {A : α → γ → Prop} {B : β → γ → Prop} {as : List α} {bs : List β}
    (h : List.Forall₂ (fun a b => ∃ c, A a c ∧ B b c) as bs) :
    ∃ cs, List.Forall₂ A as cs ∧ List.Forall₂ B bs cs := by
  induction h with
  | nil => exact ⟨[], .nil, .nil⟩
  | cons hc _ ih =>
    obtain ⟨c, hac, hbc⟩ := hc
    obtain ⟨cs, has, hbs⟩ := ih
    exact ⟨c :: cs, .cons hac has, .cons hbc hbs⟩

theorem forall₂_iff_forall {R : α → β → Prop} {P : α → Prop} {as : List α} {bs : List β}
    (h : List.Forall₂ (fun a b => R a b ↔ P a) as bs) :
    List.Forall₂ R as bs ↔ ∀ a ∈ as, P a := by
  induction h with
  | nil => simp
  | cons ha _ ih => rw [List.forall₂_cons, List.forall_mem_cons, ha, ih]

variable {R : α → Value → Prop} {P : α → Prop}

/-- A list means what was written if all its items do. -/
theorem meansIff_arrayText {ts : List (List Char)} {as : List α}
    (h : List.Forall₂ (fun t a => MeansIff t (R a) (P a)) ts as) :
    MeansIff (arrayText ts) (Lists R as) (∀ a ∈ as, P a) := by
  obtain ⟨ws, hts, has⟩ := exists_forall₂ h
  refine ⟨.array ws, evaluates_arrayText hts, ?_⟩
  rw [← forall₂_iff_forall has]
  constructor
  · rintro ⟨_, ⟨⟩, hws⟩
    exact hws
  · intro hws
    exact ⟨ws, rfl, hws⟩

/-- All members are defined just if none has the name for the prototype. -/
theorem filter_eq_self_iff {ws : List (String × β)} :
    (ws.filter fun m => m.1 ≠ prototypeName) = ws ↔ prototypeName ∉ ws.map Prod.fst := by
  rw [List.filter_eq_self]
  constructor
  · intro h hmem
    obtain ⟨m, hm, hname⟩ := List.mem_map.1 hmem
    exact of_decide_eq_true (h m hm) hname
  · intro h m hm
    exact decide_eq_true fun hname => h (hname ▸ List.mem_map_of_mem hm)

/-- An object literal loses just the member with the name for the prototype. -/
theorem owns_filter_iff {es : List (String × α)} {ws : List (String × Value)}
    (hnames : es.map Prod.fst = ws.map Prod.fst) :
    Owns R es (.object (ws.filter fun m => m.1 ≠ prototypeName)) ↔
      prototypeName ∉ es.map Prod.fst ∧ List.Forall₂ (fun e w => R e.2 w.2) es ws := by
  rw [hnames, ← filter_eq_self_iff]
  constructor
  · rintro ⟨_, ⟨⟩, hown, hvalues⟩
    -- As many members are defined as there are names.
    have hlength := congrArg List.length (hown.symm.trans hnames)
    rw [List.length_map, List.length_map] at hlength
    have hall := List.filter_sublist.eq_of_length hlength
    rw [hall, List.forall₂_map_left_iff, List.forall₂_map_right_iff] at hvalues
    exact ⟨hall, hvalues⟩
  · rintro ⟨hall, hvalues⟩
    refine ⟨ws, by rw [hall], hnames, ?_⟩
    rwa [List.forall₂_map_left_iff, List.forall₂_map_right_iff]

/-- **What an object means.** It means what was written if none of the keys is the name for the
prototype, and the values of its members mean what was written. -/
theorem meansIff_objectText {ms : List (String × List Char)} {es : List (String × α)}
    (hnodup : (es.map Prod.fst).Nodup)
    (h : List.Forall₂ (fun m e => m.1 = e.1 ∧ MeansIff m.2 (R e.2) (P e.2)) ms es) :
    MeansIff (objectText ms) (Owns R es)
      (prototypeName ∉ es.map Prod.fst ∧ ∀ e ∈ es, P e.2) := by
  have hmember : List.Forall₂ (fun m e => ∃ w : String × Value,
      (m.1 = w.1 ∧ Evaluates m.2 w.2) ∧ (e.1 = w.1 ∧ (R e.2 w.2 ↔ P e.2))) ms es := by
    refine h.imp fun m e hme => ?_
    obtain ⟨hname, w, ht, hw⟩ := hme
    exact ⟨(e.1, w), ⟨hname, ht⟩, rfl, hw⟩
  obtain ⟨ws, hms, hes⟩ := exists_forall₂ hmember
  have hnames : es.map Prod.fst = ws.map Prod.fst := by
    rw [← List.forall₂_eq_eq_eq, List.forall₂_map_left_iff, List.forall₂_map_right_iff]
    exact hes.imp fun _ _ => And.left
  have hvalues : List.Forall₂ (fun e w => R e.2 w.2) es ws ↔ ∀ e ∈ es, P e.2 :=
    forall₂_iff_forall (hes.imp fun _ _ => And.right)
  refine ⟨_, evaluates_objectText hms (objectOf?_of_nodup (hnames ▸ hnodup)), ?_⟩
  rw [owns_filter_iff hnames, hvalues]

/-! ### JSON values -/

/-- No key of a value is the name for the prototype, and its numbers are doubles. -/
def IsPreserved (v : Json) : Prop :=
  v.Everywhere fun
    | .int k => IsDouble k.natAbs
    | .object ms => prototypeName ∉ ms.map Prod.fst
    | _ => True

/-- The expression for a JSON value means it just if the value is preserved. -/
theorem meansIff_ofJson {v : Json} (hfloats : v.HasNoFloats) (hrepeats : v.HasNoRepeats) :
    MeansIff (ofJson v) (Means v) (IsPreserved v) := by
  induction v using Json.induction with
  | scalar v hscalar =>
    cases hscalar using Json.IsScalar.cases with
    | null => exact evaluates_null.meansIff .null
    | bool b => exact (evaluates_bool b).meansIff (.bool b)
    | int k => exact ⟨_, evaluates_intText k, means_int_iff.trans Number.toInt?_ofInt_iff⟩
    | float x => exact hfloats.elim
    | string s => exact (evaluates_double s).meansIff (.string s)
  | array vs ih =>
    obtain ⟨-, hfloats⟩ := Json.everywhere_array.1 hfloats
    obtain ⟨-, hrepeats⟩ := Json.everywhere_array.1 hrepeats
    have hitems : List.Forall₂ (fun t v => MeansIff t (Means v) (IsPreserved v))
        (vs.map ofJson) vs := by
      rw [List.forall₂_map_left_iff]
      exact List.forall₂_same.2 fun v hv => ih v hv (hfloats v hv) (hrepeats v hv)
    rw [ofJson_array]
    refine (meansIff_arrayText hitems).congr (fun w => means_array_iff) ?_
    rw [IsPreserved, Json.everywhere_array, true_and]
    rfl
  | object ms ih =>
    obtain ⟨-, hfloats⟩ := Json.everywhere_object.1 hfloats
    obtain ⟨hnames, hrepeats⟩ := Json.everywhere_object.1 hrepeats
    have hmembers : List.Forall₂ (fun t m => t.1 = m.1 ∧ MeansIff t.2 (Means m.2) (IsPreserved m.2))
        (ms.map fun m => (m.1, ofJson m.2)) ms := by
      rw [List.forall₂_map_left_iff]
      exact List.forall₂_same.2 fun m hm => ⟨rfl, ih m hm (hfloats m hm) (hrepeats m hm)⟩
    rw [ofJson_object]
    refine (meansIff_objectText hnames hmembers).congr (fun w => means_object_iff) ?_
    rw [IsPreserved, Json.everywhere_object]
    rfl

end StyleModule.Script
