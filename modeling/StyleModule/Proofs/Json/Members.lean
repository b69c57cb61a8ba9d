import Mathlib.Data.List.Forall2
import StyleModule.Proofs.Json.Decoding
import StyleModule.Proofs.OrderedMap

/-!
# Decoded containers

A container can be decoded if each of its values can (`Json.isSome_mapOf?`, `Json.isSome_listOf?`).
The relations `Json.DescribesMap` and `Json.DescribesList` say what it is decoded to: the names of
an object stay in the order in which they first come, and a repeated name has its last value.
-/

namespace StyleModule.Json

variable {α β : Type}

/-! ### Members -/

theorem member?_cons (m : String × Json) (ms : List (String × Json)) (name : String) :
    member? (m :: ms) name = (member? ms name).or (if m.1 = name then some m.2 else none) := by
  simp only [member?, List.reverse_cons, List.find?_append]
  cases ms.reverse.find? fun m => m.1 == name with
  | some n => rfl
  | none => by_cases h : m.1 = name <;> simp [h]

theorem mem_of_member? {ms : List (String × Json)} {name : String} {v : Json}
    (h : member? ms name = some v) : (name, v) ∈ ms := by
  obtain ⟨m, hm, rfl⟩ := Option.map_eq_some_iff.1 h
  have hname : m.1 = name := by simpa using List.find?_some hm
  exact hname ▸ List.mem_reverse.1 (List.mem_of_find?_eq_some hm)

theorem member?_eq_none_iff {ms : List (String × Json)} {name : String} :
    member? ms name = none ↔ name ∉ ms.map Prod.fst := by
  simp only [member?, Option.map_eq_none_iff, List.find?_eq_none, List.mem_reverse, beq_iff_eq,
    List.mem_map, not_exists, not_and]

/-- The last value of a name is decoded to the value of the name. -/
theorem lookup_of_mapM {decode : Json → Option α} {ms : List (String × Json)}
    {es : List (String × α)}
    (h : ms.mapM (fun m => (decode m.2).map fun a => (m.1, a)) = some es) (name : String) :
    (es.reverse.lookup name).map some = (member? ms name).map decode := by
  induction ms generalizing es with
  | nil =>
    obtain rfl : es = [] := by simpa using h.symm
    simp [member?]
  | cons m ms ih =>
    obtain ⟨k, v⟩ := m
    simp only [List.mapM_cons, Option.bind_eq_bind, Option.bind_eq_some_iff,
      Option.map_eq_some_iff] at h
    obtain ⟨-, ⟨a, ha, rfl⟩, es', hes, hes'⟩ := h
    obtain rfl : es = (k, a) :: es' := by simpa using hes'.symm
    -- Whatever comes later in the list has been found before.
    have hlast := ih hes
    rw [member?_cons, List.reverse_cons, List.lookup_append]
    cases hm : member? ms name with
    | some w =>
      obtain ⟨b, hb, -⟩ : ∃ b, es'.reverse.lookup name = some b ∧ some b = decode w := by
        simpa [hm, Option.map_eq_some_iff] using hlast
      simpa [hm, hb] using hlast
    | none =>
      have hnone : es'.reverse.lookup name = none := by simpa [hm] using hlast
      by_cases hk : k = name
      · simp [hnone, hk, ha]
      · simp [hnone, hk, List.lookup_cons, beq_false_of_ne (Ne.symm hk)]

/-- A name has a value in the map if it has one in the object. -/
theorem get?_of_mapOf? {decode : Json → Option α} {v : Json} {m : OrderedMap α}
    (h : mapOf? decode v = some m) (name : String) :
    (m.get? name).map some = (v.get? name).map decode := by
  cases v with
  | object ms =>
    obtain ⟨es, hes, rfl⟩ := Option.map_eq_some_iff.1 h
    rw [OrderedMap.get?_ofList]
    exact lookup_of_mapM hes name
  | _ => cases h

/-! ### Which containers can be decoded -/

/-- A value is an object and all its values have a property. -/
def IsObjectOf (P : Json → Prop) : Json → Prop
  | object ms => ∀ m ∈ ms, P m.2
  | _ => False

/-- A value is a list and all its values have a property. -/
def IsListOf (P : Json → Prop) : Json → Prop
  | array vs => ∀ v ∈ vs, P v
  | _ => False

theorem isSome_mapM {f : α → Option β} {as : List α} :
    (as.mapM f).isSome ↔ ∀ a ∈ as, (f a).isSome := by
  induction as with
  | nil => simp
  | cons a as ih =>
    rw [List.mapM_cons, List.forall_mem_cons, ← ih]
    cases f a <;> cases as.mapM f <;> simp

theorem isSome_mapOf? {decode : Json → Option α} {v : Json} :
    (mapOf? decode v).isSome ↔ IsObjectOf (fun w => (decode w).isSome) v := by
  cases v with
  | object ms => simp [mapOf?, IsObjectOf, isSome_mapM]
  | _ => simp [mapOf?, IsObjectOf]

theorem isSome_listOf? {decode : Json → Option α} {v : Json} :
    (listOf? decode v).isSome ↔ IsListOf (fun w => (decode w).isSome) v := by
  cases v with
  | array vs => simp [listOf?, IsListOf, isSome_mapM]
  | _ => simp [listOf?, IsListOf]

/-! ### What containers are decoded to -/

/-- An object says what is in a map. The keys have the order in which the names first come, and each
is given the last value of its name. -/
def DescribesMap (R : Json → α → Prop) : Json → OrderedMap α → Prop
  | object ms, m =>
    m.keys = (ms.map Prod.fst).eraseDups ∧ ∀ key, Option.Rel R (member? ms key) (m.get? key)
  | _, _ => False

/-- A list says what is in a list. -/
def DescribesList (R : Json → α → Prop) : Json → List α → Prop
  | array vs, as => List.Forall₂ R vs as
  | _, _ => False

theorem forall₂_of_mapM {f : α → Option β} {as : List α} {bs : List β} (h : as.mapM f = some bs) :
    List.Forall₂ (fun a b => f a = some b) as bs := by
  induction as generalizing bs with
  | nil =>
    obtain rfl : bs = [] := by simpa using h.symm
    exact .nil
  | cons a as ih =>
    simp only [List.mapM_cons, Option.bind_eq_bind, Option.bind_eq_some_iff] at h
    obtain ⟨b, hb, bs', hbs, h⟩ := h
    obtain rfl : bs = b :: bs' := by simpa using h.symm
    exact .cons hb (ih hbs)

variable {decode : Json → Option α} {R : Json → α → Prop}

theorem describesList_of_listOf? {v : Json} {as : List α} (h : listOf? decode v = some as)
    (hR : ∀ w a, decode w = some a → R w a) : DescribesList R v as := by
  cases v with
  | array vs => exact (forall₂_of_mapM h).imp hR
  | _ => cases h

theorem keys_of_mapM {ms : List (String × Json)} {es : List (String × α)}
    (h : ms.mapM (fun m => (decode m.2).map fun a => (m.1, a)) = some es) :
    es.map Prod.fst = ms.map Prod.fst := by
  have hnames : List.Forall₂ (· = ·) (ms.map Prod.fst) (es.map Prod.fst) := by
    rw [List.forall₂_map_left_iff, List.forall₂_map_right_iff]
    refine (forall₂_of_mapM h).imp fun m e he => ?_
    obtain ⟨a, -, rfl⟩ := Option.map_eq_some_iff.1 he
    rfl
  rw [List.forall₂_eq_eq_eq] at hnames
  exact hnames.symm

theorem describesMap_of_mapOf? {v : Json} {m : OrderedMap α} (h : mapOf? decode v = some m)
    (hR : ∀ w a, IsPart w v → decode w = some a → R w a) : DescribesMap R v m := by
  have hget := get?_of_mapOf? h
  cases v with
  | object ms =>
    obtain ⟨es, hes, rfl⟩ := Option.map_eq_some_iff.1 h
    refine ⟨by rw [OrderedMap.keys_ofList, keys_of_mapM hes], fun key => ?_⟩
    have hkey : ((OrderedMap.ofList es).get? key).map some = (member? ms key).map decode := hget key
    cases hm : member? ms key with
    | none =>
      have hnone : (OrderedMap.ofList es).get? key = none := by simpa [hm] using hkey
      rw [hnone]
      exact .none
    | some w =>
      obtain ⟨a, ha, hw⟩ : ∃ a, (OrderedMap.ofList es).get? key = some a ∧ some a = decode w := by
        simpa [hm, Option.map_eq_some_iff] using hkey
      rw [ha]
      exact .some (hR w a (.member (mem_of_member? hm)) hw.symm)
  | _ => cases h

/-! ### Containers say one thing -/

theorem rightUnique_rel (hR : Relator.RightUnique R) : Relator.RightUnique (Option.Rel R) := by
  intro v a b ha hb
  cases ha with
  | none =>
    cases hb
    rfl
  | some ha => cases hb with
    | some hb => rw [hR ha hb]

theorem rightUnique_describesList (hR : Relator.RightUnique R) :
    Relator.RightUnique (DescribesList R) := by
  intro v as bs ha hb
  cases v with
  | array vs => exact hR.forall₂ ha hb
  | _ => cases ha

theorem rightUnique_describesMap (hR : Relator.RightUnique R) :
    Relator.RightUnique (DescribesMap R) := by
  intro v m n hm hn
  cases v with
  | object ms =>
    exact OrderedMap.ext_get? (hm.1.trans hn.1.symm) fun key =>
      rightUnique_rel hR (hm.2 key) (hn.2 key)
  | _ => cases hm

end StyleModule.Json
