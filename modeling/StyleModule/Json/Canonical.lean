import StyleModule.Json.Basic

/-!
# Canonical JSON values

A literal keeps of an object only what its members are, not how they were ordered or repeated.
`Json.canonical` gives the value that stands for all of these: in every object the names ascend, and
of a repeated name the last value is kept. Names are ordered by code points.

The result is canonical (`isCanonical_canonical`), and nothing is changed in a value that already is
(`canonical_eq_self`).
-/

namespace StyleModule.Json

mutual

/-- In every object, at any depth, the names ascend. -/
def IsCanonical : Json → Prop
  | array items => ItemsCanonical items
  | object members => (members.map Prod.fst).Pairwise (· < ·) ∧ MembersCanonical members
  | _ => True

/-- All values of a list are canonical. -/
def ItemsCanonical : List Json → Prop
  | [] => True
  | v :: vs => v.IsCanonical ∧ ItemsCanonical vs

/-- The values of all members are canonical. -/
def MembersCanonical : List (String × Json) → Prop
  | [] => True
  | (_, v) :: ms => v.IsCanonical ∧ MembersCanonical ms

end

/-- Put a member in its place among members with ascending names, unless its name is there. -/
def insertNew (name : String) (value : Json) : List (String × Json) → List (String × Json)
  | [] => [(name, value)]
  | (n, v) :: ms =>
    if name < n then (name, value) :: (n, v) :: ms
    else if name = n then (n, v) :: ms
    else (n, v) :: insertNew name value ms

mutual

/-- The value with ascending names in all objects, each with its last value. -/
def canonical : Json → Json
  | array items => array (canonicalItems items)
  | object members => object (canonicalMembers members)
  | null => null
  | bool b => bool b
  | int n => int n
  | float x => float x
  | string s => string s

/-- The canonical forms of the values of a list. -/
def canonicalItems : List Json → List Json
  | [] => []
  | v :: vs => v.canonical :: canonicalItems vs

/-- The canonical form of the members of an object. They are put in from the last to the first, so
that a later member of the same name is there before an earlier one. -/
def canonicalMembers : List (String × Json) → List (String × Json)
  | [] => []
  | (n, v) :: ms => insertNew n v.canonical (canonicalMembers ms)

end

/-! ### Inserting a member -/

theorem mem_insertNew {name : String} {value : Json} {ms : List (String × Json)}
    {m : String × Json} (h : m ∈ insertNew name value ms) : m = (name, value) ∨ m ∈ ms := by
  induction ms with
  | nil => simpa [insertNew] using h
  | cons head tail ih =>
    obtain ⟨n, v⟩ := head
    simp only [insertNew] at h
    split at h
    · simpa using h
    · split at h
      · exact .inr h
      · rcases List.mem_cons.1 h with h | h
        · exact .inr (by simp [h])
        · exact (ih h).imp_right fun h => List.mem_cons_of_mem _ h

theorem pairwise_insertNew {name : String} {value : Json} {ms : List (String × Json)}
    (h : (ms.map Prod.fst).Pairwise (· < ·)) :
    ((insertNew name value ms).map Prod.fst).Pairwise (· < ·) := by
  induction ms with
  | nil => simp [insertNew]
  | cons head tail ih =>
    obtain ⟨n, v⟩ := head
    obtain ⟨hn, ht⟩ := List.pairwise_cons.1 h
    simp only [insertNew]
    split
    case isTrue hlt =>
      refine List.pairwise_cons.2 ⟨fun k hk => ?_, h⟩
      rcases List.mem_cons.1 hk with rfl | hk
      · exact hlt
      · exact String.lt_trans hlt (hn k hk)
    case isFalse hlt =>
      split
      · exact h
      case isFalse hne =>
        refine List.pairwise_cons.2 ⟨fun k hk => ?_, ih ht⟩
        obtain ⟨m, hm, rfl⟩ := List.mem_map.1 hk
        rcases mem_insertNew hm with rfl | hm
        · refine String.not_le.1 fun hle => hne ?_
          exact String.le_antisymm hle (String.not_lt.1 hlt)
        · exact hn _ (List.mem_map_of_mem hm)

theorem membersCanonical_iff {ms : List (String × Json)} :
    MembersCanonical ms ↔ ∀ m ∈ ms, m.2.IsCanonical := by
  induction ms with
  | nil => simp [MembersCanonical]
  | cons m ms ih => obtain ⟨n, v⟩ := m; simp [MembersCanonical, ih]

theorem itemsCanonical_iff {vs : List Json} : ItemsCanonical vs ↔ ∀ v ∈ vs, v.IsCanonical := by
  induction vs with
  | nil => simp [ItemsCanonical]
  | cons v vs ih => simp [ItemsCanonical, ih]

theorem membersCanonical_insertNew {name : String} {value : Json} {ms : List (String × Json)}
    (hv : value.IsCanonical) (h : MembersCanonical ms) :
    MembersCanonical (insertNew name value ms) := by
  rw [membersCanonical_iff] at h ⊢
  intro m hm
  rcases mem_insertNew hm with rfl | hm
  · exact hv
  · exact h m hm

/-- A member whose name is below all others goes to the front. -/
theorem insertNew_of_lt {name : String} {value : Json} {ms : List (String × Json)}
    (h : ∀ k ∈ ms.map Prod.fst, name < k) : insertNew name value ms = (name, value) :: ms := by
  cases ms with
  | nil => rfl
  | cons head tail =>
    obtain ⟨n, v⟩ := head
    simp [insertNew, h n (by simp)]

/-! ### The canonical form -/

theorem pairwise_canonicalMembers (ms : List (String × Json)) :
    ((canonicalMembers ms).map Prod.fst).Pairwise (· < ·) := by
  induction ms with
  | nil => simp [canonicalMembers]
  | cons m ms ih =>
    obtain ⟨n, v⟩ := m
    simpa [canonicalMembers] using pairwise_insertNew ih

mutual

theorem isCanonical_canonical : ∀ v : Json, v.canonical.IsCanonical
  | array items => by simpa [canonical, IsCanonical] using itemsCanonical_canonicalItems items
  | object members => by
    simp only [canonical, IsCanonical]
    exact ⟨pairwise_canonicalMembers members, membersCanonical_canonicalMembers members⟩
  | null | bool _ | int _ | float _ | string _ => by simp [canonical, IsCanonical]

theorem itemsCanonical_canonicalItems : ∀ vs : List Json, ItemsCanonical (canonicalItems vs)
  | [] => by simp [canonicalItems, ItemsCanonical]
  | v :: vs => by
    simp only [canonicalItems, ItemsCanonical]
    exact ⟨isCanonical_canonical v, itemsCanonical_canonicalItems vs⟩

theorem membersCanonical_canonicalMembers :
    ∀ ms : List (String × Json), MembersCanonical (canonicalMembers ms)
  | [] => by simp [canonicalMembers, MembersCanonical]
  | (_, v) :: ms => by
    simp only [canonicalMembers]
    exact membersCanonical_insertNew (isCanonical_canonical v)
      (membersCanonical_canonicalMembers ms)

end

mutual

theorem canonical_eq_self : ∀ {v : Json}, v.IsCanonical → v.canonical = v
  | array items, h => by simp [canonical, canonicalItems_eq_self (by simpa [IsCanonical] using h)]
  | object members, h => by
    simp only [IsCanonical] at h
    simp [canonical, canonicalMembers_eq_self h.1 h.2]
  | null, _ | bool _, _ | int _, _ | float _, _ | string _, _ => by simp [canonical]

theorem canonicalItems_eq_self : ∀ {vs : List Json}, ItemsCanonical vs → canonicalItems vs = vs
  | [], _ => by simp [canonicalItems]
  | v :: vs, h => by
    simp only [ItemsCanonical] at h
    simp [canonicalItems, canonical_eq_self h.1, canonicalItems_eq_self h.2]

theorem canonicalMembers_eq_self : ∀ {ms : List (String × Json)},
    (ms.map Prod.fst).Pairwise (· < ·) → MembersCanonical ms → canonicalMembers ms = ms
  | [], _, _ => by simp [canonicalMembers]
  | (n, v) :: ms, hp, h => by
    simp only [MembersCanonical] at h
    obtain ⟨hn, hp⟩ := List.pairwise_cons.1 hp
    rw [canonicalMembers, canonical_eq_self h.1, canonicalMembers_eq_self hp h.2]
    exact insertNew_of_lt hn

end

end StyleModule.Json
