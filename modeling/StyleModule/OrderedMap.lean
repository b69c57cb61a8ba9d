/-!
# Maps in order of insertion

An `OrderedMap` lists its entries in the order in which their keys first came in. Giving a key a
new value leaves it where it is (`keys_upsert`), so equal sequences of operations list equal keys
in equal order. No key is listed twice.

`==` compares maps without regard to the order of their entries.
-/

namespace StyleModule

/-- A map from strings that keeps the order in which its keys came in. -/
structure OrderedMap (α : Type) where
  /-- The keys with their values, in order. -/
  entries : List (String × α)
  /-- No key is listed twice. -/
  nodup : (entries.map Prod.fst).Nodup

namespace OrderedMap

variable {α : Type}

@[ext] theorem ext {m n : OrderedMap α} (h : m.entries = n.entries) : m = n := by
  cases m; cases n; simpa using h

/-- The map without entries. -/
def empty : OrderedMap α := ⟨[], by simp⟩

instance : Inhabited (OrderedMap α) := ⟨empty⟩

instance : EmptyCollection (OrderedMap α) := ⟨empty⟩

/-- The keys in order. -/
def keys (m : OrderedMap α) : List String := m.entries.map Prod.fst

/-- The number of entries. -/
def size (m : OrderedMap α) : Nat := m.entries.length

/-- Whether there are no entries. -/
def isEmpty (m : OrderedMap α) : Bool := m.entries.isEmpty

/-- The value of a key. -/
def get? (m : OrderedMap α) (key : String) : Option α := m.entries.lookup key

/-- Change the value of a key in a list of entries, or put the key at the end. -/
def upsertEntries (key : String) (f : Option α → α) : List (String × α) → List (String × α)
  | [] => [(key, f none)]
  | (k, v) :: es =>
    if k = key then (k, f (some v)) :: es else (k, v) :: upsertEntries key f es

theorem keys_upsertEntries (key : String) (f : Option α → α) (es : List (String × α)) :
    (upsertEntries key f es).map Prod.fst =
      if key ∈ es.map Prod.fst then es.map Prod.fst else es.map Prod.fst ++ [key] := by
  induction es with
  | nil => simp [upsertEntries]
  | cons e es ih =>
    obtain ⟨k, v⟩ := e
    simp only [upsertEntries]
    split
    case isTrue h => simp [h]
    case isFalse h =>
      have h' : ¬key = k := fun e => h e.symm
      simp only [List.map_cons, List.mem_cons, h', false_or, ih]
      split <;> simp

theorem nodup_upsertEntries {key : String} {f : Option α → α} {es : List (String × α)}
    (h : (es.map Prod.fst).Nodup) : ((upsertEntries key f es).map Prod.fst).Nodup := by
  rw [keys_upsertEntries]
  split
  · exact h
  case isFalse hk =>
    refine List.nodup_append.2 ⟨h, by simp, fun a ha b hb => ?_⟩
    rw [List.mem_singleton.1 hb]
    exact fun e => hk (e ▸ ha)

theorem lookup_upsertEntries (key k : String) (f : Option α → α) (es : List (String × α)) :
    (upsertEntries key f es).lookup k =
      if k = key then some (f (es.lookup key)) else es.lookup k := by
  induction es with
  | nil => simp only [upsertEntries]; grind
  | cons e es ih => obtain ⟨j, v⟩ := e; simp only [upsertEntries]; grind

/-- Give a key the value that the function makes of its value so far. A new key goes to the end. -/
def upsert (m : OrderedMap α) (key : String) (f : Option α → α) : OrderedMap α :=
  ⟨upsertEntries key f m.entries, nodup_upsertEntries m.nodup⟩

/-- Give a key a value. A new key goes to the end. -/
def insert (m : OrderedMap α) (key : String) (value : α) : OrderedMap α :=
  m.upsert key fun _ => value

/-- The map made by inserting the entries of a list one after the other. -/
def ofList (entries : List (String × α)) : OrderedMap α :=
  entries.foldl (fun m e => m.insert e.1 e.2) empty

theorem keys_upsert (m : OrderedMap α) (key : String) (f : Option α → α) :
    (m.upsert key f).keys = if key ∈ m.keys then m.keys else m.keys ++ [key] :=
  keys_upsertEntries key f m.entries

theorem get?_upsert (m : OrderedMap α) (key k : String) (f : Option α → α) :
    (m.upsert key f).get? k = if k = key then some (f (m.get? key)) else m.get? k :=
  lookup_upsertEntries key k f m.entries

theorem get?_insert (m : OrderedMap α) (key k : String) (value : α) :
    (m.insert key value).get? k = if k = key then some value else m.get? k :=
  m.get?_upsert key k _

/-- Equality without regard to order. -/
def beq [BEq α] (m n : OrderedMap α) : Bool :=
  m.size == n.size && m.entries.all fun (key, v) =>
    match n.get? key with
    | some w => v == w
    | none => false

instance [BEq α] : BEq (OrderedMap α) := ⟨beq⟩

end OrderedMap

end StyleModule
