import Mathlib.Data.List.Forall2
import StyleModule.Json.Canonical

/-!
# JSON values as trees

What is said of a whole value here is said of everything in it: `Json.Everywhere p` asks for `p` at
every place of a value, and `Json.depth` counts the containers that are open at the deepest place.
Proofs go by `Json.induction`, with one case for all values that are not containers.

`Json.Reordered` relates values that differ only in the order of members. The canonical form of a
value is such a reordering if no name is repeated (`Json.reordered_canonical`), and is never nested
deeper than the value (`Json.depth_canonical_le`).
-/

namespace StyleModule.Json

/-- Whether a value is not a container. -/
def IsScalar : Json → Prop
  | array _ => False
  | object _ => False
  | _ => True

/-- A value that is not a container is of one of five kinds. -/
@[elab_as_elim]
theorem IsScalar.cases {motive : (v : Json) → v.IsScalar → Prop} (null : motive null trivial)
    (bool : ∀ b, motive (bool b) trivial) (int : ∀ n, motive (int n) trivial)
    (float : ∀ x, motive (float x) trivial) (string : ∀ s, motive (string s) trivial) {v : Json}
    (hv : v.IsScalar) : motive v hv := by
  cases v with
  | null => exact null
  | bool b => exact bool b
  | int n => exact int n
  | float x => exact float x
  | string s => exact string s
  | array vs => exact hv.elim
  | object ms => exact hv.elim

/-! ### Induction -/

@[elab_as_elim]
theorem induction {motive : Json → Prop} (scalar : ∀ v, v.IsScalar → motive v)
    (array : ∀ vs, (∀ v ∈ vs, motive v) → motive (array vs))
    (object : ∀ ms, (∀ m ∈ ms, motive m.2) → motive (object ms)) (v : Json) : motive v :=
  @Json.rec motive (fun vs => ∀ v ∈ vs, motive v) (fun ms => ∀ m ∈ ms, motive m.2)
    (fun m => motive m.2) (scalar _ trivial) (fun _ => scalar _ trivial)
    (fun _ => scalar _ trivial) (fun _ => scalar _ trivial) (fun _ => scalar _ trivial) array object
    (List.forall_mem_nil _) (fun _ _ hv hvs => List.forall_mem_cons.2 ⟨hv, hvs⟩)
    (List.forall_mem_nil _) (fun _ _ hm hms => List.forall_mem_cons.2 ⟨hm, hms⟩)
    (fun _ _ hv => hv) v

/-! ### Everything in a value -/

mutual

/-- A property holds of a value and of everything in it. -/
def Everywhere (p : Json → Prop) : Json → Prop
  | array items => p (array items) ∧ ItemsEverywhere p items
  | object members => p (object members) ∧ MembersEverywhere p members
  | v => p v

/-- A property holds of everything in the values of a list. -/
def ItemsEverywhere (p : Json → Prop) : List Json → Prop
  | [] => True
  | v :: vs => v.Everywhere p ∧ ItemsEverywhere p vs

/-- A property holds of everything in the values of all members. -/
def MembersEverywhere (p : Json → Prop) : List (String × Json) → Prop
  | [] => True
  | (_, v) :: ms => v.Everywhere p ∧ MembersEverywhere p ms

end

variable {p : Json → Prop}

theorem itemsEverywhere_iff {vs : List Json} :
    ItemsEverywhere p vs ↔ ∀ v ∈ vs, v.Everywhere p := by
  induction vs with
  | nil => simp [ItemsEverywhere]
  | cons v vs ih => simp [ItemsEverywhere, ih]

theorem membersEverywhere_iff {ms : List (String × Json)} :
    MembersEverywhere p ms ↔ ∀ m ∈ ms, m.2.Everywhere p := by
  induction ms with
  | nil => simp [MembersEverywhere]
  | cons m ms ih => obtain ⟨n, v⟩ := m; simp [MembersEverywhere, ih]

theorem everywhere_array {vs : List Json} :
    (array vs).Everywhere p ↔ p (array vs) ∧ ∀ v ∈ vs, v.Everywhere p := by
  rw [Everywhere, itemsEverywhere_iff]

theorem everywhere_object {ms : List (String × Json)} :
    (object ms).Everywhere p ↔ p (object ms) ∧ ∀ m ∈ ms, m.2.Everywhere p := by
  rw [Everywhere, membersEverywhere_iff]

theorem Everywhere.self {v : Json} (h : v.Everywhere p) : p v := by
  cases v with
  | array vs => exact (everywhere_array.1 h).1
  | object ms => exact (everywhere_object.1 h).1
  | _ => exact h

/-- A value is an item of a list or the value of a member of an object. -/
inductive IsPart : Json → Json → Prop
  | item {v : Json} {vs : List Json} : v ∈ vs → IsPart v (array vs)
  | member {m : String × Json} {ms : List (String × Json)} : m ∈ ms → IsPart m.2 (object ms)

theorem IsPart.everywhere {v w : Json} (h : IsPart w v) (hv : v.Everywhere p) : w.Everywhere p := by
  cases h with
  | item hw => exact (everywhere_array.1 hv).2 w hw
  | member hm => exact (everywhere_object.1 hv).2 _ hm

/-- No object of a value lists a name twice. -/
def HasNoRepeats (v : Json) : Prop :=
  v.Everywhere fun
    | object ms => (ms.map Prod.fst).Nodup
    | _ => True

/-- A value has no floating point numbers. -/
def HasNoFloats (v : Json) : Prop :=
  v.Everywhere fun
    | float _ => False
    | _ => True

/-- A whole number has 64 bits, if it is negative with one of them for the sign. -/
def FitsWord (n : Int) : Prop := -0x8000000000000000 ≤ n ∧ n < 0x10000000000000000

/-- The numbers of a value are whole and have 64 bits. Minus zero is among them: it is what `-0` is
read as. -/
def HasOnlyIntegers (v : Json) : Prop :=
  v.Everywhere fun
    | int n => FitsWord n
    | float x => x = -0.0
    | _ => True

/-! ### Depth -/

mutual

/-- How many containers are open at the deepest place of a value. -/
def depth : Json → Nat
  | array items => itemsDepth items + 1
  | object members => membersDepth members + 1
  | _ => 0

/-- The greatest depth of the values of a list. -/
def itemsDepth : List Json → Nat
  | [] => 0
  | v :: vs => max v.depth (itemsDepth vs)

/-- The greatest depth of the values of all members. -/
def membersDepth : List (String × Json) → Nat
  | [] => 0
  | (_, v) :: ms => max v.depth (membersDepth ms)

end

theorem itemsDepth_le_iff {vs : List Json} {n : Nat} :
    itemsDepth vs ≤ n ↔ ∀ v ∈ vs, v.depth ≤ n := by
  induction vs with
  | nil => simp [itemsDepth]
  | cons v vs ih => rw [itemsDepth, Nat.max_le, ih, List.forall_mem_cons]

theorem membersDepth_le_iff {ms : List (String × Json)} {n : Nat} :
    membersDepth ms ≤ n ↔ ∀ m ∈ ms, m.2.depth ≤ n := by
  induction ms with
  | nil => simp [membersDepth]
  | cons m ms ih => rw [membersDepth, Nat.max_le, ih, List.forall_mem_cons]

theorem depth_array_le_iff {vs : List Json} {n : Nat} :
    (array vs).depth ≤ n + 1 ↔ ∀ v ∈ vs, v.depth ≤ n := by
  rw [depth, Nat.add_le_add_iff_right, itemsDepth_le_iff]

theorem depth_object_le_iff {ms : List (String × Json)} {n : Nat} :
    (object ms).depth ≤ n + 1 ↔ ∀ m ∈ ms, m.2.depth ≤ n := by
  rw [depth, Nat.add_le_add_iff_right, membersDepth_le_iff]

theorem IsPart.depth_le {v w : Json} (h : IsPart w v) {n : Nat} (hv : v.depth ≤ n + 1) :
    w.depth ≤ n := by
  cases h with
  | item hw => exact depth_array_le_iff.1 hv w hw
  | member hm => exact depth_object_le_iff.1 hv _ hm

theorem depth_scalar {v : Json} (hv : v.IsScalar) : v.depth = 0 := by
  cases hv using IsScalar.cases <;> rfl

/-! ### The canonical form -/

theorem canonical_scalar {v : Json} (hv : v.IsScalar) : v.canonical = v := by
  cases hv using IsScalar.cases <;> simp [canonical]

theorem canonicalItems_eq_map (vs : List Json) : canonicalItems vs = vs.map canonical := by
  induction vs with
  | nil => simp [canonicalItems]
  | cons v vs ih => simp [canonicalItems, ih]

theorem mem_canonicalMembers {ms : List (String × Json)} {m : String × Json}
    (h : m ∈ canonicalMembers ms) : ∃ n ∈ ms, m = (n.1, n.2.canonical) := by
  induction ms with
  | nil => simp [canonicalMembers] at h
  | cons n ms ih =>
    obtain ⟨k, v⟩ := n
    rcases mem_insertNew h with rfl | h
    · exact ⟨(k, v), by simp, rfl⟩
    · obtain ⟨n, hn, rfl⟩ := ih h
      exact ⟨n, List.mem_cons_of_mem _ hn, rfl⟩

theorem depth_canonical_le {v : Json} {n : Nat} (h : v.depth ≤ n) : v.canonical.depth ≤ n := by
  induction v using induction generalizing n with
  | scalar v hv => rwa [canonical_scalar hv]
  | array vs ih =>
    cases n with
    | zero => simp [depth] at h
    | succ n =>
      rw [depth_array_le_iff] at h
      simp only [canonical, canonicalItems_eq_map, depth_array_le_iff, List.mem_map]
      rintro _ ⟨v, hv, rfl⟩
      exact ih v hv (h v hv)
  | object ms ih =>
    cases n with
    | zero => simp [depth] at h
    | succ n =>
      rw [depth_object_le_iff] at h
      rw [canonical, depth_object_le_iff]
      intro m hm
      obtain ⟨n, hn, rfl⟩ := mem_canonicalMembers hm
      exact ih n hn (h n hn)

/-- What holds of all containers is kept by the canonical form. -/
theorem everywhere_canonical (harray : ∀ vs, p (array vs)) (hobject : ∀ ms, p (object ms))
    {v : Json} (h : v.Everywhere p) : v.canonical.Everywhere p := by
  induction v using induction with
  | scalar v hv => rwa [canonical_scalar hv]
  | array vs ih =>
    obtain ⟨-, h⟩ := everywhere_array.1 h
    rw [canonical, canonicalItems_eq_map]
    refine everywhere_array.2 ⟨harray _, fun w hw => ?_⟩
    obtain ⟨v, hv, rfl⟩ := List.mem_map.1 hw
    exact ih v hv (h v hv)
  | object ms ih =>
    obtain ⟨-, h⟩ := everywhere_object.1 h
    rw [canonical]
    refine everywhere_object.2 ⟨hobject _, fun m hm => ?_⟩
    obtain ⟨n, hn, rfl⟩ := mem_canonicalMembers hm
    exact ih n hn (h n hn)

theorem eq_string_of_canonical {v : Json} {s : String} (h : v.canonical = string s) :
    v = string s := by
  cases v <;> simp_all [canonical]

theorem eq_singleton_of_canonical {v : Json} {s : String} (h : v.canonical = array [string s]) :
    v = array [string s] := by
  cases v with
  | array vs =>
    rw [canonical, canonicalItems_eq_map, array.injEq] at h
    obtain ⟨w, vs', rfl, hw, hvs'⟩ := List.map_eq_cons_iff.1 h
    rw [List.map_eq_nil_iff.1 hvs', eq_string_of_canonical hw]
  | _ => simp [canonical] at h

/-- Two values differ at most in the order of the members of their objects. -/
inductive Reordered : Json → Json → Prop
  | scalar {v : Json} : v.IsScalar → Reordered v v
  | array {vs ws : List Json} : List.Forall₂ Reordered vs ws → Reordered (array vs) (array ws)
  | object {ms ns os : List (String × Json)} : ms.map Prod.fst = ns.map Prod.fst →
      List.Forall₂ Reordered (ms.map Prod.snd) (ns.map Prod.snd) → ns.Perm os →
      Reordered (object ms) (object os)

theorem Reordered.eq_string {v : Json} {s : String} (h : Reordered v (string s)) :
    v = string s := by
  cases h
  rfl

/-- There is only one order of one member. -/
theorem Reordered.eq_singleton {v : Json} {k s : String}
    (h : Reordered v (.object [(k, .string s)])) : v = .object [(k, .string s)] := by
  cases h with
  | scalar hv => exact hv.elim
  | object hnames hvalues hperm =>
    rw [List.perm_singleton] at hperm
    subst hperm
    obtain ⟨⟨k', w⟩, ms, rfl, hk, hms⟩ := List.map_eq_cons_iff.1 hnames
    obtain rfl := List.map_eq_nil_iff.1 hms
    obtain ⟨hw, -⟩ := List.forall₂_cons.1 hvalues
    obtain rfl : k' = k := hk
    obtain rfl : w = .string s := hw.eq_string
    rfl

theorem insertNew_perm {name : String} {value : Json} {ms : List (String × Json)}
    (h : name ∉ ms.map Prod.fst) : (insertNew name value ms).Perm ((name, value) :: ms) := by
  induction ms with
  | nil => exact .refl _
  | cons m ms ih =>
    obtain ⟨k, v⟩ := m
    simp only [List.map_cons, List.mem_cons, not_or] at h
    simp only [insertNew, h.1, ↓reduceIte]
    split_ifs
    · exact .refl _
    · exact ((ih h.2).cons _).trans (.swap _ _ _)

theorem canonicalMembers_perm {ms : List (String × Json)} (h : (ms.map Prod.fst).Nodup) :
    (ms.map fun m => (m.1, m.2.canonical)).Perm (canonicalMembers ms) := by
  induction ms with
  | nil => simp [canonicalMembers]
  | cons m ms ih =>
    obtain ⟨k, v⟩ := m
    obtain ⟨hk, hms⟩ := List.nodup_cons.1 h
    -- The name is new, so that its value is not dropped where it is inserted.
    have hnew : k ∉ (canonicalMembers ms).map Prod.fst := by
      intro hmem
      obtain ⟨n, hn, rfl⟩ := List.mem_map.1 hmem
      obtain ⟨o, ho, rfl⟩ := mem_canonicalMembers hn
      exact hk (List.mem_map.2 ⟨o, ho, rfl⟩)
    exact ((ih hms).cons _).trans (insertNew_perm hnew).symm

/-- Without repeated names, only the order of members tells a value from its canonical form. -/
theorem reordered_canonical {v : Json} (h : v.HasNoRepeats) : Reordered v v.canonical := by
  induction v using induction with
  | scalar v hv => rw [canonical_scalar hv]; exact .scalar hv
  | array vs ih =>
    obtain ⟨-, h⟩ := everywhere_array.1 h
    rw [canonical, canonicalItems_eq_map]
    exact .array (List.forall₂_map_right_iff.2 (List.forall₂_same.2 fun v hv => ih v hv (h v hv)))
  | object ms ih =>
    obtain ⟨hnames, h⟩ := everywhere_object.1 h
    rw [canonical]
    refine .object (by simp [Function.comp_def]) ?_ (canonicalMembers_perm hnames)
    rw [List.map_map, List.forall₂_map_left_iff, List.forall₂_map_right_iff]
    exact List.forall₂_same.2 fun m hm => ih m hm (h m hm)

/-- Names that ascend are not repeated. -/
theorem IsCanonical.hasNoRepeats {v : Json} (h : v.IsCanonical) : v.HasNoRepeats := by
  induction v using induction with
  | scalar v hv => cases hv using IsScalar.cases <;> trivial
  | array vs ih =>
    rw [IsCanonical, itemsCanonical_iff] at h
    exact everywhere_array.2 ⟨trivial, fun v hv => ih v hv (h v hv)⟩
  | object ms ih =>
    rw [IsCanonical, membersCanonical_iff] at h
    obtain ⟨hnames, h⟩ := h
    refine everywhere_object.2 ⟨hnames.imp ?_, fun m hm => ih m hm (h m hm)⟩
    exact fun hlt => String.ne_of_lt hlt

/-! ### Equal values -/

theorem itemsBeq_iff {vs ws : List Json} :
    itemsBeq vs ws ↔ List.Forall₂ (fun v w => v.beq w) vs ws := by
  induction vs generalizing ws with
  | nil => cases ws <;> simp [itemsBeq]
  | cons v vs ih => cases ws <;> simp [itemsBeq, ih]

theorem membersBeq_iff {ms ns : List (String × Json)} :
    membersBeq ms ns ↔ List.Forall₂ (fun m n => m.1 = n.1 ∧ m.2.beq n.2) ms ns := by
  induction ms generalizing ns with
  | nil => cases ns <;> simp [membersBeq]
  | cons m ms ih => cases ns <;> simp [membersBeq, ih]

theorem eq_of_forall₂ {α : Type} {R : α → α → Prop} {as bs : List α}
    (hR : ∀ a ∈ as, ∀ b, R a b → a = b) (h : List.Forall₂ R as bs) : as = bs := by
  have hall := (List.forall₂_and_left _ _).2 ⟨fun a ha => hR a ha, h⟩
  rw [← List.forall₂_eq_eq_eq]
  exact hall.imp fun _ _ hab => hab.1 _ hab.2

/-- Only floating point numbers can be equal and not the same. -/
theorem HasNoFloats.eq_of_beq {v w : Json} (hv : v.HasNoFloats) (h : v.beq w) : v = w := by
  induction v using induction generalizing w with
  | scalar v hscalar =>
    cases hscalar using IsScalar.cases with
    | float x => exact hv.elim
    | _ => cases w <;> simp_all [beq]
  | array vs ih =>
    obtain ⟨-, hv⟩ := everywhere_array.1 hv
    cases w with
    | array ws => rw [eq_of_forall₂ (fun v hmem w => ih v hmem (hv v hmem)) (itemsBeq_iff.1 h)]
    | _ => cases h
  | object ms ih =>
    obtain ⟨-, hv⟩ := everywhere_object.1 hv
    cases w with
    | object ns =>
      have hmember : ∀ m ∈ ms, ∀ n : String × Json, m.1 = n.1 ∧ m.2.beq n.2 → m = n :=
        fun m hm n hmn => Prod.ext hmn.1 (ih m hm (hv m hm) hmn.2)
      rw [eq_of_forall₂ hmember (membersBeq_iff.1 h)]
    | _ => cases h

end StyleModule.Json
