import Mathlib.Data.List.Basic
import Mathlib.Data.List.Induction
import Mathlib.Data.List.Perm.Subperm
import StyleModule.OrderedMap
import StyleModule.Proofs.Repetition

/-!
# Maps made by changes

`OrderedMap.ofList` inserts entries one after the other: a key has the value of its last entry
(`OrderedMap.get?_ofList`), and the entries of a map make up the same map again
(`OrderedMap.ofList_entries`). More generally the keys of a run of changes stand in the order of
their first changes (`OrderedMap.keys_upsertAll`), and the value of each comes of the changes of it
alone (`OrderedMap.get?_upsertAll`).

Maps are equal if they give each key equal values (`OrderedMap.beq_iff_get?`), and equal changes
keep them equal (`OrderedMap.upsert_beq`).
-/

namespace StyleModule.OrderedMap

variable {α β : Type}

theorem upsertEntries_of_notMem {key : String} {f : Option α → α} {es : List (String × α)}
    (h : key ∉ es.map Prod.fst) : upsertEntries key f es = es ++ [(key, f none)] := by
  induction es with
  | nil => rfl
  | cons e es ih =>
    obtain ⟨k, v⟩ := e
    simp only [List.map_cons, List.mem_cons, not_or] at h
    simp [upsertEntries, Ne.symm h.1, ih h.2]

theorem entries_foldl_insert {es : List (String × α)} {m : OrderedMap α}
    (h : ((m.entries ++ es).map Prod.fst).Nodup) :
    (es.foldl (fun m e => m.insert e.1 e.2) m).entries = m.entries ++ es := by
  induction es generalizing m with
  | nil => simp
  | cons e es ih =>
    have hnew : e.1 ∉ m.entries.map Prod.fst := by
      rw [List.map_append, List.nodup_append] at h
      exact fun he => h.2.2 _ he _ (by simp) rfl
    have hinsert : (m.insert e.1 e.2).entries = m.entries ++ [e] :=
      upsertEntries_of_notMem hnew
    rw [List.foldl_cons, ih (by simpa [hinsert] using h), hinsert]
    simp

theorem entries_ofList {es : List (String × α)} (h : (es.map Prod.fst).Nodup) :
    (ofList es).entries = es :=
  entries_foldl_insert (m := empty) h

theorem ofList_entries (m : OrderedMap α) : ofList m.entries = m :=
  ext (entries_ofList m.nodup)

theorem get?_foldl_insert (es : List (String × α)) (m : OrderedMap α) (key : String) :
    (es.foldl (fun m e => m.insert e.1 e.2) m).get? key =
      (es.reverse.lookup key).or (m.get? key) := by
  induction es generalizing m with
  | nil => rfl
  | cons e es ih =>
    obtain ⟨k, a⟩ := e
    -- The first entry is looked up last.
    rw [List.foldl_cons, ih, get?_insert, List.reverse_cons, List.lookup_append, Option.or_assoc]
    by_cases h : key = k
    · simp [h]
    · simp [List.lookup_cons, h, beq_false_of_ne h]

/-- A key has the value of its last entry. -/
theorem get?_ofList (es : List (String × α)) (key : String) :
    (ofList es).get? key = es.reverse.lookup key := by
  rw [ofList, get?_foldl_insert]
  cases es.reverse.lookup key <;> rfl

/-! ### Runs of changes -/

/-- What a list of calls gives a key, in order. -/
def given (key : String) (calls : List (String × β)) : List β :=
  calls.filterMap fun c => if c.1 = key then some c.2 else none

/-- Change the values of keys one after the other, each by what a call gives it. -/
def upsertAll (f : Option α → β → α) (m : OrderedMap α) (calls : List (String × β)) :
    OrderedMap α :=
  calls.foldl (fun m c => m.upsert c.1 fun a => f a c.2) m

/-- The keys have the order of their first calls. -/
theorem keys_upsertAll (f : Option α → β → α) (calls : List (String × β)) :
    (upsertAll f ∅ calls).keys = (calls.map Prod.fst).eraseDups := by
  induction calls using List.reverseRecOn with
  | nil => rfl
  | append_singleton calls c ih =>
    have hlast : upsertAll f ∅ (calls ++ [c]) =
        (upsertAll f ∅ calls).upsert c.1 fun a => f a c.2 := by
      simp [upsertAll]
    rw [hlast, keys_upsert, ih, List.map_append, List.map_singleton, eraseDups_concat]
    simp only [List.mem_eraseDups]

/-- The value of a key comes of the calls for it alone. -/
theorem get?_upsertAll (f : Option α → β → α) (m : OrderedMap α) (calls : List (String × β))
    (key : String) : (m.upsertAll f calls).get? key =
      (given key calls).foldl (fun a b => some (f a b)) (m.get? key) := by
  induction calls generalizing m with
  | nil => rfl
  | cons c calls ih =>
    obtain ⟨k, b⟩ := c
    rw [upsertAll, List.foldl_cons, ← upsertAll, ih, get?_upsert]
    by_cases h : k = key
    · simp [given, h]
    · simp [given, h, Ne.symm h]

/-- The keys have the order in which they first come in the list. -/
theorem keys_ofList (es : List (String × α)) : (ofList es).keys = (es.map Prod.fst).eraseDups :=
  keys_upsertAll (fun _ a => a) es

/-- A key has the value it is listed with. -/
theorem get?_of_mem {m : OrderedMap α} {e : String × α} (h : e ∈ m.entries) :
    m.get? e.1 = some e.2 := by
  obtain ⟨entries, nodup⟩ := m
  simp only [get?]
  induction entries with
  | nil => cases h
  | cons d es ih =>
    obtain ⟨k, v⟩ := d
    obtain ⟨hk, nodup⟩ := List.nodup_cons.1 nodup
    rcases List.mem_cons.1 h with rfl | hmem
    · simp
    · have hne : e.1 ≠ k := by
        rintro rfl
        exact hk (List.mem_map.2 ⟨e, hmem, rfl⟩)
      simpa [List.lookup_cons, beq_false_of_ne hne] using ih nodup hmem

/-- A map is told by its keys in order and their values. -/
theorem ext_get? {m n : OrderedMap α} (hkeys : m.keys = n.keys)
    (hget : ∀ key, m.get? key = n.get? key) : m = n := by
  have hentries : ∀ m : OrderedMap α,
      m.entries = m.keys.filterMap fun key => (m.get? key).map fun a => (key, a) := by
    intro m
    rw [keys, List.filterMap_map]
    conv_lhs => rw [← List.filterMap_some (l := m.entries)]
    exact List.filterMap_congr fun e he => by simp [get?_of_mem he]
  refine ext ?_
  rw [hentries m, hentries n, hkeys]
  simp only [hget]

/-- The map with the same keys and other values. -/
def map (f : α → β) (m : OrderedMap α) : OrderedMap β where
  entries := m.entries.map fun e => (e.1, f e.2)
  nodup := by simpa [Function.comp_def] using m.nodup

theorem map_eq_self_iff {f : α → α} {m : OrderedMap α} :
    m.map f = m ↔ ∀ e ∈ m.entries, f e.2 = e.2 := by
  constructor
  · intro h e he
    have hentries : m.entries.map (fun e => (e.1, f e.2)) = m.entries := congrArg entries h
    have hall := List.map_inj_left.1 (hentries.trans (List.map_id _).symm)
    exact congrArg Prod.snd (hall e he)
  · intro h
    refine ext ?_
    change m.entries.map (fun e => (e.1, f e.2)) = m.entries
    conv_rhs => rw [← List.map_id m.entries]
    exact List.map_inj_left.2 fun e he => by rw [h e he, id]

/-! ### Equality without regard to order -/

theorem mem_of_get? {m : OrderedMap α} {key : String} {a : α} (h : m.get? key = some a) :
    (key, a) ∈ m.entries := by
  obtain ⟨before, after, hentries, -⟩ := List.lookup_eq_some_iff.1 h
  rw [hentries]
  exact List.mem_append_right _ List.mem_cons_self

theorem get?_eq_none_iff {m : OrderedMap α} {key : String} : m.get? key = none ↔ key ∉ m.keys := by
  simp only [get?, keys, List.lookup_eq_none_iff, bne_iff_ne, List.mem_map, not_exists, not_and]
  exact forall₂_congr fun _ _ => ne_comm

variable [BEq α] {m n : OrderedMap α}

theorem beq_iff : m == n ↔
    m.size = n.size ∧ ∀ e ∈ m.entries, ∃ b, n.get? e.1 = some b ∧ e.2 == b := by
  change m.beq n ↔ _
  rw [beq, Bool.and_eq_true, beq_iff_eq, List.all_eq_true]
  refine and_congr_right fun _ => forall₂_congr fun e _ => ?_
  obtain ⟨key, a⟩ := e
  dsimp only
  cases n.get? key <;> simp

/-- Equal maps have the same keys in some order. -/
theorem perm_keys_of_beq (h : m == n) : m.keys.Perm n.keys := by
  obtain ⟨hsize, hentries⟩ := beq_iff.1 h
  have hsubset : m.keys ⊆ n.keys := by
    intro key hkey
    obtain ⟨e, he, rfl⟩ := List.mem_map.1 hkey
    obtain ⟨b, hb, -⟩ := hentries e he
    exact List.mem_map.2 ⟨_, mem_of_get? hb, rfl⟩
  refine (List.Nodup.subperm m.nodup hsubset).perm_of_length_le ?_
  simpa [keys, size] using Nat.le_of_eq hsize.symm

/-- Maps are equal if they give each key equal values, or none. -/
theorem beq_iff_get? : m == n ↔
    ∀ key, Option.Rel (fun a b => a == b) (m.get? key) (n.get? key) := by
  constructor
  · intro h key
    have hkeys := perm_keys_of_beq h
    obtain ⟨-, hentries⟩ := beq_iff.1 h
    cases hm : m.get? key with
    | none =>
      have hn : n.get? key = none := by
        rw [get?_eq_none_iff, ← hkeys.mem_iff, ← get?_eq_none_iff, hm]
      rw [hn]
      exact .none
    | some a =>
      obtain ⟨b, hb, hab⟩ := hentries _ (mem_of_get? hm)
      rw [hb]
      exact .some hab
  · intro h
    have hkeys : ∀ key, key ∈ m.keys ↔ key ∈ n.keys := by
      intro key
      rw [← not_iff_not, ← get?_eq_none_iff, ← get?_eq_none_iff]
      have hkey := h key
      generalize m.get? key = x, n.get? key = y at hkey
      cases hkey <;> simp
    refine beq_iff.2 ⟨?_, fun e he => ?_⟩
    · have hlength := ((List.perm_ext_iff_of_nodup m.nodup n.nodup).2 hkeys).length_eq
      simpa [size] using hlength
    · have hkey := h e.1
      rw [get?_of_mem he] at hkey
      generalize n.get? e.1 = y at hkey
      cases hkey with
      | some hab => exact ⟨_, rfl, hab⟩

/-- Equal changes of a key keep maps equal. -/
theorem upsert_beq {f g : Option α → α}
    (hfg : ∀ x y, Option.Rel (fun a b => a == b) x y → f x == g y) (h : m == n) (key : String) :
    m.upsert key f == n.upsert key g := by
  rw [beq_iff_get?] at h ⊢
  intro k
  rw [get?_upsert, get?_upsert]
  split_ifs
  · exact .some (hfg _ _ (h key))
  · exact h k

theorem insert_beq {a b : α} (hab : a == b) (h : m == n) (key : String) :
    m.insert key a == n.insert key b :=
  upsert_beq (fun _ _ _ => hab) h key

theorem eq_of_rel_beq [LawfulBEq α] {x y : Option α}
    (h : Option.Rel (fun a b => a == b) x y) : x = y := by
  cases h with
  | none => rfl
  | some hab => rw [eq_of_beq hab]

theorem get?_eq_of_beq [LawfulBEq α] (h : m == n) (key : String) : m.get? key = n.get? key :=
  eq_of_rel_beq (beq_iff_get?.1 h key)

theorem upsert_beq_self [LawfulBEq α] (f : Option α → α) (h : m == n) (key : String) :
    m.upsert key f == n.upsert key f :=
  upsert_beq (fun _ _ hxy => by rw [eq_of_rel_beq hxy, beq_self_eq_true]) h key

end StyleModule.OrderedMap
