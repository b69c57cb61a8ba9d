import Mathlib.Data.List.TakeWhile
import StyleModule.Proofs.Command.Directories

/-!
# What making directories and writing files changes

Making directories changes no file (`Disk.makeDirectories_adds`), and none is made where one is
(`Disk.makeDirectories_of_isPathOf`). Writing a file in a directory changes the file at one place
(`Disk.fileAt?_set_append`), and it fails just for a path or a name that is too long and for a name
that stands for a directory (`Disk.write_joinPath_eq_ok`). What was written is read back from the
same path (`Disk.read_joinPath`).
-/

namespace StyleModule.Command

open Json

/-! ### Paths of files in a directory -/

theorem splitSlashes_ne_nil (cs : List Char) : splitSlashes cs ≠ [] := by
  induction cs with
  | nil => simp [splitSlashes]
  | cons c cs ih =>
    rw [splitSlashes]
    split_ifs
    · simp
    · split <;> simp

theorem splitSlashes_append_slash (s t : List Char) :
    splitSlashes (s ++ '/' :: t) = splitSlashes s ++ splitSlashes t := by
  induction s with
  | nil => simp [splitSlashes]
  | cons c s ih =>
    rw [List.cons_append, splitSlashes, splitSlashes, ih]
    split_ifs
    · rfl
    · obtain ⟨part, parts, h⟩ := List.exists_cons_of_ne_nil (splitSlashes_ne_nil s)
      rw [h]
      rfl

theorem splitSlashes_of_notMem {cs : List Char} (h : '/' ∉ cs) : splitSlashes cs = [cs] := by
  induction cs with
  | nil => rfl
  | cons c cs ih =>
    obtain ⟨hc, hcs⟩ := not_or.1 (List.mem_cons.not.1 h)
    simp [splitSlashes, Ne.symm hc, ih hcs]

/-- A file in a directory has the names of the directory before its own. -/
theorem pathNames_joinPath (directory : String) {file : String} (h : '/' ∉ file.toList) :
    ∃ outer empties, pathNames (joinPath directory file) = outer ++ [file] ∧
      pathNames directory = outer ++ empties ∧ ∀ name ∈ empties, name = "" := by
  have hfile : splitSlashes file.toList = [file.toList] := splitSlashes_of_notMem h
  unfold joinPath
  split_ifs with hslash
  · rcases hslash with rfl | hslash
    · exact ⟨[], [""], by simp [pathNames, hfile], rfl, by simp⟩
    · obtain ⟨s, hs⟩ := List.getLast?_eq_some_iff.1 hslash
      refine ⟨(splitSlashes s).map String.ofList, [""], ?_, ?_, by simp⟩
      · simp [pathNames, hs, splitSlashes_append_slash, hfile]
      · simp [pathNames, hs, splitSlashes_append_slash, splitSlashes]
  · refine ⟨pathNames directory, [], ?_, by simp, by simp⟩
    simp [pathNames, splitSlashes_append_slash, hfile]

theorem startsAtRoot_joinPath (directory : String) {file : String} (h : '/' ∉ file.toList) :
    startsAtRoot (joinPath directory file) = startsAtRoot directory := by
  have hfile : file.toList.head? ≠ some '/' := fun hhead => h (List.mem_of_mem_head? hhead)
  unfold joinPath
  by_cases hdirectory : directory = ""
  · subst hdirectory
    simp [startsAtRoot, hfile]
  · obtain ⟨c, cs, hlist⟩ := List.exists_cons_of_ne_nil (l := directory.toList)
      (by simpa using hdirectory)
    split_ifs <;> simp [startsAtRoot, hlist]

theorem joinPath_ne_empty (directory : String) {file : String} (h : file ≠ "") :
    joinPath directory file ≠ "" := by
  unfold joinPath
  split_ifs <;> simp [h]

namespace Disk

variable {d d' : Disk} {p q : Place} {name : String} {names outer : List String} {x : Entry}

variable (d) in
/-- A text is a path of the directory at a place. -/
def IsPathOf (path : String) (p : Place) : Prop := d.LeadsTo (d.origin path ++ pathNames path) p

/-- A file in a directory is found under its name where the path of the directory leads. -/
theorem exists_outer (d : Disk) (directory : String) {file : String} (h : '/' ∉ file.toList) :
    ∃ outer, d.origin (joinPath directory file) ++ pathNames (joinPath directory file) =
      outer ++ [file] ∧ ∀ p, d.LeadsTo outer p ↔ d.IsPathOf directory p := by
  obtain ⟨outer, empties, hfile, hdirectory, hempty⟩ := pathNames_joinPath directory h
  refine ⟨d.origin directory ++ outer, ?_, fun p => ?_⟩
  · rw [origin, startsAtRoot_joinPath directory h, hfile, List.append_assoc]
    rfl
  · rw [IsPathOf, hdirectory, ← List.append_assoc, leadsTo_append_empty hempty]

/-! ### Putting something in a directory -/

theorem set_append_eq (d : Disk) (p : Place) (name : String) (x : Entry) :
    (d.set (p ++ [name]) x).root = x.put (p ++ [name]) (some d.root) := by
  obtain ⟨first, rest, h⟩ := List.exists_cons_of_ne_nil (List.append_ne_nil_of_right_ne_nil p
    (List.cons_ne_nil name []))
  rw [h]
  exact d.root_set x first rest

/-- No file is on the way to what is in a directory. -/
theorem fileAt?_of_prefix (hp : d.IsDirectoryAt p) {r : Place} (hr : r <+: p ++ [name])
    (hne : r ≠ p ++ [name]) : d.fileAt? r = none := by
  refine fileAt?_of_isDirectoryAt (hp.of_prefix ?_)
  rcases List.prefix_concat_iff.1 hr with h | h
  · exact absurd h hne
  · exact h

/-- Only the file at the place itself changes. -/
theorem fileAt?_set_append (hp : d.IsDirectoryAt p) (hnew : ¬d.IsDirectoryAt (p ++ [name]))
    (hx : Entry.inside (some x) = []) (q : Place) :
    (d.set (p ++ [name]) x).fileAt? q =
      if q = p ++ [name] then Entry.content? (some x) else d.fileAt? q :=
  d.fileAt?_set hx (by simp) (fun _ hr hne => fileAt?_of_prefix hp hr hne)
    (fun es hes => hnew (Entry.isDirectory_iff.2 ⟨es, hes⟩)) q

theorem isDirectoryAt_set_append (hnew : ¬d.IsDirectoryAt (p ++ [name]))
    (hq : d.IsDirectoryAt q) : (d.set (p ++ [name]) x).IsDirectoryAt q := by
  rw [IsDirectoryAt, entryAt?, set_append_eq]
  exact Entry.isDirectory_at?_put hnew hq

theorem entryAt?_set_append_of_ne {other : String} (hp : d.IsDirectoryAt p) (hne : other ≠ name) :
    (d.set (p ++ [name]) x).entryAt? (p ++ [other]) = d.entryAt? (p ++ [other]) := by
  rw [entryAt?, set_append_eq]
  exact Entry.at?_put_of_ne hp hne

/-! ### Making directories -/

/-- No directory is gone. -/
structure KeepsDirectories (d d' : Disk) : Prop where
  /-- Paths start where they did. -/
  current : d'.current = d.current
  /-- Where a directory was, there is one. -/
  isDirectoryAt : ∀ q, d.IsDirectoryAt q → d'.IsDirectoryAt q

/-- There may be more directories, but the files are the same. -/
structure AddsDirectories (d d' : Disk) : Prop extends KeepsDirectories d d' where
  /-- The files are the same. -/
  fileAt? : ∀ q, d'.fileAt? q = d.fileAt? q

theorem KeepsDirectories.isPathOf (h : KeepsDirectories d d') {path : String}
    (hp : d.IsPathOf path p) : d'.IsPathOf path p := by
  rw [IsPathOf, origin, h.current]
  exact hp.mono h.isDirectoryAt

theorem KeepsDirectories.trans {d'' : Disk} (h : KeepsDirectories d d')
    (h' : KeepsDirectories d' d'') : KeepsDirectories d d'' :=
  ⟨h'.current.trans h.current, fun q hq => h'.isDirectoryAt q (h.isDirectoryAt q hq)⟩

theorem AddsDirectories.refl (d : Disk) : AddsDirectories d d :=
  ⟨⟨rfl, fun _ hq => hq⟩, fun _ => rfl⟩

theorem AddsDirectories.trans {d'' : Disk} (h : AddsDirectories d d')
    (h' : AddsDirectories d' d'') : AddsDirectories d d'' :=
  ⟨h.toKeepsDirectories.trans h'.toKeepsDirectories, fun q => (h'.fileAt? q).trans (h.fileAt? q)⟩

theorem keepsDirectories_set_append (hnew : ¬d.IsDirectoryAt (p ++ [name])) :
    KeepsDirectories d (d.set (p ++ [name]) x) :=
  ⟨rfl, fun _ hq => isDirectoryAt_set_append hnew hq⟩

/-- Names are those before the empty ones at their end, and these. -/
theorem exists_trimNames (names : List String) :
    ∃ empties, names = trimNames names ++ empties ∧ ∀ name ∈ empties, name = "" := by
  refine ⟨(names.reverse.takeWhile (· == "")).reverse, ?_, fun name hname => ?_⟩
  · rw [trimNames, ← List.reverse_append, List.takeWhile_append_dropWhile, List.reverse_reverse]
  · have hname := List.mem_takeWhile_imp (List.mem_reverse.1 hname)
    simpa using hname

theorem leadsTo_trimNames : d.LeadsTo (trimNames names) p ↔ d.LeadsTo names p := by
  obtain ⟨empties, hnames, hempty⟩ := exists_trimNames names
  conv_rhs => rw [hnames]
  exact (leadsTo_append_empty hempty).symm

/-- A directory is made inside the one that the other names lead to, if nothing has its name. -/
theorem makeDirectory_concat (htrim : trimNames names = outer ++ [name]) (hp : d.LeadsTo outer p) :
    d.makeDirectory names =
      if isDotName name then .error .exists
      else if maxNameBytes < name.utf8ByteSize then .error .nameTooLong
      else match d.entryAt? (p ++ [name]) with
        | some _ => .error .exists
        | none => .ok (d.set (p ++ [name]) (.directory [])) := by
  obtain ⟨w, hw, rfl⟩ := hp
  have hway : d.IsWay w := isWay_of_descend hw
  simp only [makeDirectory, htrim, List.dropLast_concat, List.getLast?_concat, Option.getD_some,
    hw, ok_bind, find?_eq hway]
  split_ifs <;> rfl

theorem makeDirectory_of_trimNames_eq_nil (htrim : trimNames names = []) :
    d.makeDirectory names = .error .exists := by
  simp [makeDirectory, htrim, descend, isDotName]

/-- Making a directory changes no file. -/
theorem makeDirectory_adds (h : d.makeDirectory names = .ok d') : AddsDirectories d d' := by
  rcases List.eq_nil_or_concat (trimNames names) with htrim | ⟨outer, name, htrim⟩
  · rw [makeDirectory_of_trimNames_eq_nil htrim] at h
    cases h
  rw [List.concat_eq_append] at htrim
  obtain ⟨p, hp⟩ : ∃ p, d.LeadsTo outer p := by
    obtain ⟨w, hw, -⟩ := bind_eq_ok.1 h
    rw [htrim, List.dropLast_concat] at hw
    exact ⟨w.place, w, hw, rfl⟩
  rw [makeDirectory_concat htrim hp] at h
  split_ifs at h with hname hsize
  cases hentry : d.entryAt? (p ++ [name]) with
  | some entry =>
    rw [hentry] at h
    cases h
  | none =>
    rw [hentry] at h
    cases h
    have hnew : ¬d.IsDirectoryAt (p ++ [name]) := by
      rw [IsDirectoryAt, hentry]
      exact id
    refine ⟨keepsDirectories_set_append hnew, fun q => ?_⟩
    rw [fileAt?_set_append hp.isDirectoryAt hnew rfl]
    split_ifs with hq
    · rw [hq, fileAt?, ← entryAt?, hentry]
      rfl
    · rfl

/-- A directory that is there is not made again. -/
theorem makeDirectory_of_leadsTo (h : d.LeadsTo names p) :
    d.makeDirectory names = .error .exists := by
  rcases List.eq_nil_or_concat (trimNames names) with htrim | ⟨outer, name, htrim⟩
  · exact makeDirectory_of_trimNames_eq_nil htrim
  rw [List.concat_eq_append] at htrim
  rw [← leadsTo_trimNames, htrim] at h
  obtain ⟨q, hq⟩ := h.of_append
  rw [makeDirectory_concat htrim hq]
  split_ifs with hname hsize
  · rfl
  · obtain ⟨-, -, hle, -, -⟩ := (leadsTo_append_singleton (by simpa using hname)).1 h
    exact absurd hsize (Nat.not_lt.2 hle)
  · obtain ⟨r, hr, -, hdirectory, rfl⟩ := (leadsTo_append_singleton (by simpa using hname)).1 h
    obtain rfl := hq.unique hr
    obtain ⟨es, hes⟩ := Entry.isDirectory_iff.1 hdirectory
    rw [hes]

theorem makeNested_adds (d : Disk) (directories : List (List String)) :
    AddsDirectories d (makeNested d directories).1 := by
  fun_induction makeNested d directories with
  | case1 d => exact .refl d
  | case2 d names outer d₁ hmade => exact makeDirectory_adds hmade
  | case3 d names outer _ d₁ e houter ih => rwa [houter] at ih
  | case4 d names outer _ d₁ houter d₂ hmade ih =>
    rw [houter] at ih
    exact ih.trans (makeDirectory_adds hmade)
  | case5 d names outer _ d₁ houter e _ ih => rwa [houter] at ih
  | case6 d names outer e => exact .refl d

/-- Making directories changes no file. -/
theorem makeDirectories_adds (d : Disk) (path : String) :
    AddsDirectories d (d.makeDirectories path).1 := by
  unfold makeDirectories
  split
  · exact .refl d
  · split_ifs
    · exact .refl d
    · exact makeNested_adds d _

/-- Where a directory is nothing is made, whatever the directories around it. -/
theorem makeDirectories_of_isPathOf {path : String} (h : d.IsPathOf path p) :
    d.makeDirectories path = (d, checkPath path) := by
  unfold makeDirectories
  cases hcheck : checkPath path with
  | error e => rfl
  | ok =>
    split_ifs
    · rfl
    · have hdirectory : d.isDirectory (d.origin path ++ pathNames path) = true :=
        isDirectory_eq_true_iff.2 ⟨p, h⟩
      simp [makeNested, makeDirectory_of_leadsTo h, hdirectory]

/-! ### Writing and reading files -/

theorem placeToWrite_append_singleton (hname : isDotName name = false) :
    d.placeToWrite (outer ++ [name]) = .ok q ↔
      ∃ p, d.LeadsTo outer p ∧ name.utf8ByteSize ≤ maxNameBytes ∧ ¬d.IsDirectoryAt q ∧
        q = p ++ [name] := by
  simp only [placeToWrite, List.dropLast_concat, List.getLast?_concat, Option.getD_some, hname,
    Bool.false_eq_true, if_false, bind_eq_ok]
  constructor
  · rintro ⟨w, hw, found, hfound, h⟩
    have hway : d.IsWay w := isWay_of_descend hw
    rw [find?_eq hway] at hfound
    split_ifs at hfound with hsize
    obtain rfl := Except.ok.inj hfound
    split at h
    case h_1 => cases h
    case h_2 hnew =>
      cases h
      refine ⟨w.place, ⟨w, hw, rfl⟩, Nat.le_of_not_lt hsize, fun hq => ?_, rfl⟩
      obtain ⟨es, hes⟩ := Entry.isDirectory_iff.1 hq
      exact hnew es hes
  · rintro ⟨p, ⟨w, hw, rfl⟩, hsize, hnew, rfl⟩
    have hway : d.IsWay w := isWay_of_descend hw
    refine ⟨w, hw, d.entryAt? (w.place ++ [name]), ?_, ?_⟩
    · rw [find?_eq hway, if_neg (Nat.not_lt.2 hsize)]
    · split
      case h_1 es hes => exact absurd (Entry.isDirectory_iff.2 ⟨es, hes⟩) hnew
      case h_2 => rfl

/-- What can be the name of a file in a directory. -/
structure IsFileName (file : String) : Prop where
  /-- It is one name. -/
  slash_notMem : '/' ∉ file.toList
  /-- It leads to no other directory. -/
  isDotName : isDotName file = false

theorem IsFileName.ne_empty {file : String} (h : IsFileName file) : file ≠ "" := by
  rintro rfl
  cases h.isDotName

/-- A file can be written in a directory unless its path or its name is too long or a directory has
its name, and then only that file changes. -/
theorem write_joinPath_eq_ok {directory file : String} (hfile : IsFileName file)
    {content : ByteArray} :
    d.write (joinPath directory file) content = .ok d' ↔
      checkPath (joinPath directory file) = .ok () ∧ file.utf8ByteSize ≤ maxNameBytes ∧
        ∃ p, d.IsPathOf directory p ∧ ¬d.IsDirectoryAt (p ++ [file]) ∧
          d' = d.set (p ++ [file]) (.file content) := by
  obtain ⟨outer, hnames, houter⟩ := d.exists_outer directory hfile.slash_notMem
  have hne : joinPath directory file ≠ "" := joinPath_ne_empty directory hfile.ne_empty
  simp only [write, bind_eq_ok, if_neg hne, hnames, placeToWrite_append_singleton hfile.isDotName,
    houter, pure_eq_ok, Except.ok.injEq]
  constructor
  · rintro ⟨_, hcheck, q, ⟨p, hp, hsize, hnew, rfl⟩, rfl⟩
    exact ⟨hcheck, hsize, p, hp, hnew, rfl⟩
  · rintro ⟨hcheck, hsize, p, hp, hnew, rfl⟩
    exact ⟨(), hcheck, p ++ [file], ⟨p, hp, hsize, hnew, rfl⟩, rfl⟩

/-- A file in a directory is read from its path. -/
theorem read_joinPath {directory file : String} (hfile : IsFileName file) {content : ByteArray}
    (hcheck : checkPath (joinPath directory file) = .ok ())
    (hsize : file.utf8ByteSize ≤ maxNameBytes) (hp : d.IsPathOf directory p)
    (hcontent : d.fileAt? (p ++ [file]) = some content) :
    d.read (joinPath directory file) = .ok content := by
  obtain ⟨outer, hnames, houter⟩ := d.exists_outer directory hfile.slash_notMem
  have hne : joinPath directory file ≠ "" := joinPath_ne_empty directory hfile.ne_empty
  obtain ⟨w, hw, rfl⟩ := (houter p).2 hp
  have hway : d.IsWay w := isWay_of_descend hw
  have hentry : d.entryAt? (w.place ++ [file]) = some (.file content) :=
    Entry.content?_eq_some.1 hcontent
  simp only [read, hcheck, ok_bind, if_neg hne, hnames, readNames, List.dropLast_concat,
    List.getLast?_concat, Option.getD_some, hw, hfile.isDotName, Bool.false_eq_true, if_false,
    find?_eq hway, if_neg (Nat.not_lt.2 hsize), hentry]

end Disk

theorem decodeText_toUTF8 (text : String) : decodeText text.toUTF8 = .ok text := by
  have hvalid : String.fromUTF8? text.toUTF8 = some text := dif_pos text.isValidUTF8
  rw [decodeText, hvalid]

end StyleModule.Command
