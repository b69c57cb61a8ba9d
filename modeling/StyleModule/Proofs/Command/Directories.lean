import StyleModule.Command.Disk
import StyleModule.Proofs.Json.Reading

/-!
# Where names lead

Names are followed from the root of a disk through directories, and a way down keeps what is in the
directories it passed. Here the same is said of places alone: `Disk.LeadsTo` is about some names and
the place of the directory where they end.

Where names lead depends on nothing but the places of the directories (`Disk.LeadsTo.mono`), so they
lead to the same place after files are written and directories made.
-/

namespace StyleModule.Command

open Json

namespace Entry

/-- An entry is there and is a directory. -/
def IsDirectory : Option Entry → Prop
  | some (.directory _) => True
  | _ => False

theorem isDirectory_iff {e : Option Entry} : IsDirectory e ↔ ∃ es, e = some (.directory es) := by
  constructor
  · intro h
    match e, h with
    | some (.directory es), _ => exact ⟨es, rfl⟩
  · rintro ⟨es, rfl⟩
    trivial

theorem inside_of_not_isDirectory {e : Option Entry} (h : ¬IsDirectory e) : inside e = [] := by
  match e with
  | none | some (.file _) => rfl
  | some (.directory _) => exact absurd trivial h

theorem content?_of_isDirectory {e : Option Entry} (h : IsDirectory e) : content? e = none := by
  obtain ⟨es, rfl⟩ := isDirectory_iff.1 h
  rfl

theorem content?_eq_some {e : Option Entry} {content : ByteArray} :
    content? e = some content ↔ e = some (.file content) := by
  match e with
  | none | some (.file _) | some (.directory _) => simp [content?]

theorem at?_append (e : Option Entry) (p q : Place) : at? e (p ++ q) = at? (at? e p) q := by
  induction p generalizing e with
  | nil => rfl
  | cons name p ih => exact ih _

/-- What is in a directory is found through directories only. -/
theorem isDirectory_of_at?_cons {e : Option Entry} {name : String} {names : Place} {x : Entry}
    (h : at? e (name :: names) = some x) : IsDirectory e := by
  by_contra he
  rw [at?_cons_of_inside (inside_of_not_isDirectory he)] at h
  cases h

/-- A directory is still there after something was put where no directory is. -/
theorem isDirectory_at?_put {x : Entry} {p q : Place} {e : Option Entry}
    (last : ¬IsDirectory (at? e p)) (h : IsDirectory (at? e q)) :
    IsDirectory (at? (some (x.put p e)) q) := by
  induction p generalizing e q with
  | nil => cases q with
    | nil => exact absurd h last
    | cons m q =>
      obtain ⟨es, hes⟩ := isDirectory_iff.1 h
      exact absurd (isDirectory_of_at?_cons hes) last
  | cons n p ih =>
    cases q with
    | nil =>
      obtain ⟨es, rfl⟩ := isDirectory_iff.1 h
      trivial
    | cons m q =>
      obtain ⟨ds, hds⟩ := isDirectory_iff.1 h
      obtain ⟨es, rfl⟩ := isDirectory_iff.1 (isDirectory_of_at?_cons hds)
      simp only [put, at?, inside, OrderedMap.lookup_upsertEntries] at h last ⊢
      split_ifs with hm
      · subst hm
        exact ih last h
      · exact h

/-- What is put in a directory leaves the rest of it as it is. -/
theorem at?_put_of_ne {x : Entry} {p : Place} {e : Option Entry} {n m : String}
    (hp : IsDirectory (at? e p)) (hne : m ≠ n) :
    at? (some (x.put (p ++ [n]) e)) (p ++ [m]) = at? e (p ++ [m]) := by
  induction p generalizing e with
  | nil =>
    obtain ⟨es, rfl⟩ := isDirectory_iff.1 hp
    simp [put, at?, inside, OrderedMap.lookup_upsertEntries, hne]
  | cons k p ih =>
    obtain ⟨ds, hds⟩ := isDirectory_iff.1 hp
    obtain ⟨es, rfl⟩ := isDirectory_iff.1 (isDirectory_of_at?_cons hds)
    simp only [List.cons_append, put, at?, inside, OrderedMap.lookup_upsertEntries, if_true]
    exact ih hp

end Entry

namespace Disk

variable {d d' : Disk} {p q : Place} {name : String} {names outer : List String}

variable (d) in
/-- What is at a place. -/
def entryAt? (p : Place) : Option Entry := Entry.at? (some d.root) p

variable (d) in
/-- A directory is at a place. -/
def IsDirectoryAt (p : Place) : Prop := Entry.IsDirectory (d.entryAt? p)

theorem entryAt?_append_singleton (p : Place) (name : String) :
    d.entryAt? (p ++ [name]) = (Entry.inside (d.entryAt? p)).lookup name :=
  Entry.at?_append _ p [name]

theorem fileAt?_of_isDirectoryAt (h : d.IsDirectoryAt p) : d.fileAt? p = none :=
  Entry.content?_of_isDirectory h

/-- The places around a directory are directories. -/
theorem IsDirectoryAt.of_prefix (h : d.IsDirectoryAt q) (hp : p <+: q) : d.IsDirectoryAt p := by
  obtain ⟨names, rfl⟩ := hp
  cases names with
  | nil => rwa [List.append_nil] at h
  | cons name names =>
    obtain ⟨es, hes⟩ := Entry.isDirectory_iff.1 h
    rw [entryAt?, Entry.at?_append] at hes
    exact Entry.isDirectory_of_at?_cons hes

/-! ### Ways -/

variable (d) in
/-- A way keeps what is in the directories at the places it passed. -/
def IsWay : Way → Prop
  | [] => True
  | (name, es) :: w =>
    IsWay w ∧ d.entryAt? (Way.place ((name, es) :: w)) = some (.directory es)

theorem Way.place_cons (name : String) (es : List (String × Entry)) (w : Way) :
    Way.place ((name, es) :: w) = w.place ++ [name] := by
  simp [Way.place]

theorem Way.place_tail (w : Way) : Way.place w.tail = w.place.dropLast := by
  cases w with
  | nil => rfl
  | cons e w => rw [Way.place_cons, List.dropLast_concat, List.tail_cons]

theorem IsWay.entryAt? {w : Way} (h : d.IsWay w) :
    d.entryAt? w.place = some (.directory (d.inside w)) := by
  cases w with
  | nil => rfl
  | cons e w => exact h.2

theorem IsWay.followDots {w : Way} (h : d.IsWay w) (name : String) :
    d.IsWay (followDots w name) := by
  unfold Disk.followDots
  split_ifs
  · cases w with
    | nil => trivial
    | cons e w => exact h.1
  · exact h

theorem Way.place_followDots {w w' : Way} (h : w.place = w'.place) (name : String) :
    Way.place (Disk.followDots w name) = Way.place (Disk.followDots w' name) := by
  unfold Disk.followDots
  split_ifs
  · rw [Way.place_tail, Way.place_tail, h]
  · exact h

theorem find?_eq {w : Way} (h : d.IsWay w) (name : String) :
    d.find? w name = if maxNameBytes < name.utf8ByteSize then .error .nameTooLong
      else .ok (d.entryAt? (w.place ++ [name])) := by
  rw [find?, entryAt?_append_singleton, h.entryAt?]
  rfl

/-- A name that is none of dots is followed into the directory that it stands for. -/
theorem descend_cons_eq_ok {w v : Way} (h : d.IsWay w) (hname : isDotName name = false) :
    d.descend w (name :: names) = .ok v ↔ name.utf8ByteSize ≤ maxNameBytes ∧
      ∃ es, d.entryAt? (w.place ++ [name]) = some (.directory es) ∧
        d.descend ((name, es) :: w) names = .ok v := by
  rw [descend, hname, if_neg (by decide), find?_eq h]
  split_ifs with hsize
  · simp [Nat.not_le.2 hsize]
  · rw [ok_bind]
    have hsize := Nat.le_of_not_lt hsize
    match d.entryAt? (w.place ++ [name]) with
    | none | some (.file _) | some (.directory _) => simp [hsize]

theorem IsWay.descend {w v : Way} (h : d.IsWay w) (hv : d.descend w names = .ok v) :
    d.IsWay v := by
  induction names generalizing w with
  | nil =>
    cases hv
    exact h
  | cons name names ih =>
    by_cases hname : isDotName name
    · rw [Disk.descend, if_pos hname] at hv
      exact ih (h.followDots name) hv
    · obtain ⟨-, es, hes, hv⟩ := (descend_cons_eq_ok h (by simpa using hname)).1 hv
      exact ih (w := (name, es) :: w) ⟨h, by rwa [Way.place_cons]⟩ hv

/-- What is followed from the root is a way. -/
theorem isWay_of_descend {w : Way} (h : d.descend [] names = .ok w) : d.IsWay w :=
  IsWay.descend (w := []) trivial h

theorem descend_append (w : Way) (names names' : List String) :
    d.descend w (names ++ names') = d.descend w names >>= fun v => d.descend v names' := by
  induction names generalizing w with
  | nil => rfl
  | cons name names ih =>
    rw [List.cons_append, descend, descend]
    split_ifs
    · exact ih _
    · cases d.find? w name with
      | error e => rfl
      | ok x => match x with
        | none | some (.file _) => rfl
        | some (.directory es) => exact ih _

/-- The same names are followed on a disk with the same directories and more. -/
theorem descend_mono (hd : ∀ p, d.IsDirectoryAt p → d'.IsDirectoryAt p) {w u v : Way}
    (hw : d.IsWay w) (hu : d'.IsWay u) (hplace : w.place = u.place)
    (hv : d.descend w names = .ok v) :
    ∃ v', d'.descend u names = .ok v' ∧ v'.place = v.place := by
  -- Ways keep what is in the directories, which may differ; only their places stay the same.
  induction names generalizing w u with
  | nil =>
    cases hv
    exact ⟨u, rfl, hplace.symm⟩
  | cons name names ih =>
    by_cases hname : isDotName name
    · rw [descend, if_pos hname] at hv ⊢
      exact ih (hw.followDots name) (hu.followDots name) (Way.place_followDots hplace name) hv
    · have hname : isDotName name = false := by simpa using hname
      obtain ⟨hsize, es, hes, hv⟩ := (descend_cons_eq_ok hw hname).1 hv
      obtain ⟨es', hes'⟩ := Entry.isDirectory_iff.1
        (hd _ (Entry.isDirectory_iff.2 ⟨es, hes⟩))
      obtain ⟨v', hv', hplace'⟩ := ih (w := (name, es) :: w) (u := (name, es') :: u)
        ⟨hw, by rwa [Way.place_cons]⟩ ⟨hu, by rwa [Way.place_cons, ← hplace]⟩
        (by rw [Way.place_cons, Way.place_cons, hplace]) hv
      exact ⟨v', (descend_cons_eq_ok hu hname).2 ⟨hsize, es', hplace ▸ hes', hv'⟩, hplace'⟩

/-! ### Places -/

variable (d) in
/-- Some names lead through directories to the directory at a place. -/
def LeadsTo (names : List String) (p : Place) : Prop :=
  ∃ w, d.descend [] names = .ok w ∧ w.place = p

theorem leadsTo_iff_of_descend {w : Way} (h : d.descend [] names = .ok w) :
    d.LeadsTo names p ↔ w.place = p := by
  simp [LeadsTo, h]

theorem isDirectory_eq_true_iff : d.isDirectory names = true ↔ ∃ p, d.LeadsTo names p := by
  unfold isDirectory LeadsTo
  cases d.descend [] names <;> simp [Except.isOk, Except.toBool]

theorem LeadsTo.isDirectoryAt (h : d.LeadsTo names p) : d.IsDirectoryAt p := by
  obtain ⟨w, hw, rfl⟩ := h
  have hway : d.IsWay w := isWay_of_descend hw
  exact Entry.isDirectory_iff.2 ⟨_, hway.entryAt?⟩

theorem LeadsTo.unique (hp : d.LeadsTo names p) (hq : d.LeadsTo names q) : p = q := by
  obtain ⟨w, hw, rfl⟩ := hp
  exact (leadsTo_iff_of_descend hw).1 hq

/-- Names lead to the same place on a disk with the same directories and more. -/
theorem LeadsTo.mono (hd : ∀ p, d.IsDirectoryAt p → d'.IsDirectoryAt p)
    (h : d.LeadsTo names p) : d'.LeadsTo names p := by
  obtain ⟨w, hw, rfl⟩ := h
  exact descend_mono (w := []) (u := []) hd trivial trivial rfl hw

/-- The names before others lead somewhere if all of them do. -/
theorem LeadsTo.of_append {names' : List String} (h : d.LeadsTo (names ++ names') p) :
    ∃ q, d.LeadsTo names q := by
  obtain ⟨w, hw, rfl⟩ := h
  rw [descend_append] at hw
  obtain ⟨v, hv, -⟩ := bind_eq_ok.1 hw
  exact ⟨v.place, v, hv, rfl⟩

/-- Empty names lead nowhere else. -/
theorem leadsTo_append_empty {empties : List String} (h : ∀ name ∈ empties, name = "") :
    d.LeadsTo (names ++ empties) p ↔ d.LeadsTo names p := by
  have hstay : ∀ w, d.descend w empties = .ok w := by
    intro w
    induction empties with
    | nil => rfl
    | cons name empties ih =>
      obtain ⟨rfl, hrest⟩ := List.forall_mem_cons.1 h
      exact ih hrest
  have hall : (fun v => d.descend v empties) = .ok := funext hstay
  rw [LeadsTo, LeadsTo, descend_append, hall]
  cases d.descend [] names <;> rfl

/-- A last name that is none of dots leads into a directory of that name. -/
theorem leadsTo_append_singleton (hname : isDotName name = false) :
    d.LeadsTo (outer ++ [name]) q ↔
      ∃ p, d.LeadsTo outer p ∧ name.utf8ByteSize ≤ maxNameBytes ∧ d.IsDirectoryAt q ∧
        q = p ++ [name] := by
  constructor
  · rintro ⟨v, hv, rfl⟩
    rw [descend_append] at hv
    obtain ⟨w, hw, hv⟩ := bind_eq_ok.1 hv
    have hway : d.IsWay w := isWay_of_descend hw
    obtain ⟨hsize, es, hes, hv⟩ := (descend_cons_eq_ok hway hname).1 hv
    cases hv
    rw [Way.place_cons]
    exact ⟨w.place, ⟨w, hw, rfl⟩, hsize, Entry.isDirectory_iff.2 ⟨es, hes⟩, rfl⟩
  · rintro ⟨p, ⟨w, hw, rfl⟩, hsize, hq, rfl⟩
    have hway : d.IsWay w := isWay_of_descend hw
    obtain ⟨es, hes⟩ := Entry.isDirectory_iff.1 hq
    have hlast : d.descend w [name] = .ok ((name, es) :: w) :=
      (descend_cons_eq_ok hway hname).2 ⟨hsize, es, hes, rfl⟩
    refine ⟨(name, es) :: w, ?_, Way.place_cons name es w⟩
    rw [descend_append, hw]
    exact hlast

end Disk

end StyleModule.Command
