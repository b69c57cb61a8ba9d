import StyleModule.OrderedMap

/-!
# Trees of files

A directory lists its entries by name, and an entry is a regular file or a directory again. What
there is at a place is found by following the names of the place from the root (`Entry.at?`).

Putting a file or an empty directory where no directory is changes the file at that place and no
other (`content?_at?_put`).
-/

namespace StyleModule.Command

/-- A place in a tree of files: the names to follow from the root. -/
abbrev Place := List String

/-- What a name stands for. -/
inductive Entry where
  | file (content : ByteArray)
  | directory (entries : List (String × Entry))

namespace Entry

/-- What is inside an entry: nothing, unless it is a directory. -/
def inside : Option Entry → List (String × Entry)
  | some (.directory es) => es
  | _ => []

/-- What is at a place, seen from an entry. -/
def at? : Option Entry → Place → Option Entry
  | e, [] => e
  | e, name :: names => at? ((inside e).lookup name) names

/-- The content of an entry, if it is a file. -/
def content? : Option Entry → Option ByteArray
  | some (.file content) => some content
  | _ => none

/-- Put something at a place, in place of what was there. Directories on the way are made where they
are missing; where a file is on the way, nothing changes. -/
def put (x : Entry) : Place → Option Entry → Entry
  | [], _ => x
  | _ :: _, some (.file content) => .file content
  | name :: names, e => .directory (OrderedMap.upsertEntries name (put x names) (inside e))

theorem at?_cons_of_inside {e : Option Entry} (h : inside e = []) (name : String)
    (names : Place) : at? e (name :: names) = none := by
  induction names generalizing e name with
  | nil => simp [at?, h]
  | cons n names ih => rw [at?, h]; exact ih rfl n

/-- Only the file at the place itself changes, provided that no file is on the way and no directory
at its end. -/
theorem content?_at?_put {x : Entry} (hx : inside (some x) = []) {p : Place} {e : Option Entry}
    (way : ∀ r, r <+: p → r ≠ p → content? (at? e r) = none)
    (last : ∀ es, at? e p ≠ some (.directory es)) (q : Place) :
    content? (at? (some (x.put p e)) q) =
      if q = p then content? (some x) else content? (at? e q) := by
  induction p generalizing e q with
  | nil =>
    have he : inside e = [] := by
      match e, last with
      | none, _ | some (.file _), _ => rfl
      | some (.directory es), last => exact absurd rfl (last es)
    cases q with
    | nil => simp [put, at?]
    | cons m q => simp [put, at?_cons_of_inside, hx, he]
  | cons n p ih =>
    have hput : x.put (n :: p) e =
        .directory (OrderedMap.upsertEntries n (put x p) (inside e)) := by
      match e, way with
      | none, _ | some (.directory _), _ => rfl
      | some (.file _), way => simpa [content?, at?] using way [] (by simp) (by simp)
    cases q with
    | nil => simpa [hput, at?, content?] using (way [] (by simp) (by simp)).symm
    | cons m q =>
      have ih := @ih ((inside e).lookup n)
        (fun r hr hne => way (n :: r) (List.prefix_cons_inj n |>.2 hr) (by simpa using hne)) last q
      by_cases h : m = n <;> simp_all [at?, inside, OrderedMap.lookup_upsertEntries]

mutual

/-- The files at a place and below it, with their places. -/
def files (p : Place) : Entry → List (Place × ByteArray)
  | .file content => [(p, content)]
  | .directory es => filesInside p es

/-- The files below the entries of the directory at a place, with their places. -/
def filesInside (p : Place) : List (String × Entry) → List (Place × ByteArray)
  | [] => []
  | (name, e) :: es => e.files (p ++ [name]) ++ filesInside p es

end

end Entry

end StyleModule.Command
