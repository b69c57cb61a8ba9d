import StyleModule.Proofs.Command.Faults

/-!
# What a run leaves in its directory

A run with a directory for its modules writes them one after the other, each into a file of its own
right in that directory. It succeeds just if all of them can be written, and then they are all
there. The disk refuses the first that cannot be written, and then those before it are there. No
other file is changed (`Session.run_outDir`).

One write changes one file (`Stored.cons`), so a module that was written stays as it is since the
names of the files differ (`Session.nodup_fileName`), and what can be written next can be told
before the first write (`canBeWritten_store`).
-/

namespace StyleModule.Command

open Disk

/-! ### Names of files -/

theorem ne_of_length_lt {name name' : String} (h : name'.toList.length < name.toList.length) :
    name ≠ name' := by
  rintro rfl
  exact Nat.lt_irrefl _ h

theorem isFileName_fileName {m : PlatformModule} (h : m.platform.all Platform.isFit) :
    IsFileName m.fileName where
  slash_notMem := m.slash_notMem_fileName h
  isDotName := by
    have hne : ∀ name : String, name.toList.length < 9 → m.fileName ≠ name := fun _ hlength =>
      ne_of_length_lt (Nat.lt_of_lt_of_le hlength m.length_fileName_le)
    simp [isDotName, hne "" (by decide), hne "." (by decide), hne ".." (by decide)]

theorem joinPath_inj {directory file file' : String}
    (h : joinPath directory file = joinPath directory file') : file = file' := by
  unfold joinPath at h
  split_ifs at h
  · exact (String.append_right_inj _).1 h
  · exact (String.append_right_inj _).1 h

namespace Session

variable {s : Session} {a : Arguments} {directory : String} {ms : List PlatformModule}

theorem modules_ne_nil (h : s.modules a = .ok ms) : ms ≠ [] := by
  obtain ⟨-, header, x, rfl⟩ := modules_eq_ok h
  simp [Platform.targets_ne_nil]

theorem isFileName_of_modules (h : s.modules a = .ok ms) : ∀ m ∈ ms, IsFileName m.fileName := by
  obtain ⟨hfit, header, x, rfl⟩ := modules_eq_ok h
  intro m hm
  obtain ⟨p, hp, rfl⟩ := List.mem_map.1 hm
  exact isFileName_fileName (Platform.all_isFit_of_mem_targets hfit hp)

/-- No two modules of a run are for the same platform, so no two have the same file name. -/
theorem nodup_fileName (h : s.modules a = .ok ms) : (ms.map (·.fileName)).Nodup := by
  obtain ⟨-, header, x, rfl⟩ := modules_eq_ok h
  rw [List.map_map]
  refine (Platform.nodup_targets a.platforms).map fun p q hpq => ?_
  exact PlatformModule.fileName_inj hpq

end Session

/-! ### Writing modules -/

/-- A file for a module can have its name and its path. -/
def CanBeNamed (directory : String) (m : PlatformModule) : Prop :=
  m.fileName.utf8ByteSize ≤ maxNameBytes ∧ checkPath (joinPath directory m.fileName) = .ok ()

instance (directory : String) : DecidablePred (CanBeNamed directory) := fun _ =>
  inferInstanceAs (Decidable (_ ∧ _))

/-- A module can be written in a directory, which is at a place. -/
structure CanBeWritten (d : Disk) (directory : String) (p : Place) (m : PlatformModule) : Prop where
  /-- The path of the directory leads to the place. -/
  isPathOf : d.IsPathOf directory p
  /-- The name and the path are not too long. -/
  canBeNamed : CanBeNamed directory m
  /-- No directory has the name. -/
  notDirectory : ¬d.IsDirectoryAt (p ++ [m.fileName])

/-- A disk with the file of a module in the directory at a place. -/
def store (d : Disk) (p : Place) (m : PlatformModule) : Disk :=
  d.set (p ++ [m.fileName]) (.file m.content.toUTF8)

/-- Modules are in the directory at a place, and no other file is changed. -/
structure Stored (before after : Disk) (directory : String) (p : Place)
    (ms : List PlatformModule) : Prop extends KeepsDirectories before after where
  /-- The path of the directory leads to the place. -/
  isPathOf : ms ≠ [] → after.IsPathOf directory p
  /-- The file of a module holds its text. -/
  fileAt? : ∀ m ∈ ms, after.fileAt? (p ++ [m.fileName]) = some m.content.toUTF8
  /-- The text is read from the path of the file. -/
  read : ∀ m ∈ ms, after.read (joinPath directory m.fileName) = .ok m.content.toUTF8
  /-- Any other file is as it was. -/
  other : ∀ q, (∀ m ∈ ms, q ≠ p ++ [m.fileName]) → after.fileAt? q = before.fileAt? q

variable {d d' after : Disk} {directory : String} {p : Place} {m : PlatformModule}
  {ms : List PlatformModule}

theorem Stored.nil (h : AddsDirectories d d') : Stored d d' directory p [] where
  toKeepsDirectories := h.toKeepsDirectories
  isPathOf hne := absurd rfl hne
  fileAt? := List.forall_mem_nil _
  read := List.forall_mem_nil _
  other q _ := h.fileAt? q

theorem Stored.of_adds (hstored : Stored d' after directory p ms) (h : AddsDirectories d d') :
    Stored d after directory p ms where
  toKeepsDirectories := h.toKeepsDirectories.trans hstored.toKeepsDirectories
  isPathOf := hstored.isPathOf
  fileAt? := hstored.fileAt?
  read := hstored.read
  other q hq := (hstored.other q hq).trans (h.fileAt? q)

/-- A path leads to one place at most. -/
theorem exists_forall_isPathOf (d : Disk) (directory : String) :
    ∃ p, ∀ q, d.IsPathOf directory q → q = p := by
  by_cases h : ∃ p, d.IsPathOf directory p
  · obtain ⟨p, hp⟩ := h
    exact ⟨p, fun q hq => hq.unique hp⟩
  · exact ⟨[], fun q hq => absurd ⟨q, hq⟩ h⟩

/-- The disk takes just the modules that can be written. -/
theorem write_eq_ok (hp : ∀ q, d.IsPathOf directory q → q = p) (hm : IsFileName m.fileName) :
    d.write (joinPath directory m.fileName) m.content.toUTF8 = .ok d' ↔
      CanBeWritten d directory p m ∧ d' = store d p m := by
  rw [write_joinPath_eq_ok hm]
  constructor
  · rintro ⟨hcheck, hsize, q, hq, hnew, rfl⟩
    obtain rfl := hp q hq
    exact ⟨⟨hq, ⟨hsize, hcheck⟩, hnew⟩, rfl⟩
  · rintro ⟨⟨hpath, ⟨hsize, hcheck⟩, hnew⟩, rfl⟩
    exact ⟨hcheck, hsize, p, hpath, hnew, rfl⟩

theorem CanBeWritten.keeps (h : CanBeWritten d directory p m) :
    KeepsDirectories d (store d p m) := keepsDirectories_set_append h.notDirectory

/-- A module is still there after others were written that have other names. -/
theorem Stored.cons (hwritten : CanBeWritten d directory p m) (hm : IsFileName m.fileName)
    (hne : ∀ n ∈ ms, n.fileName ≠ m.fileName) (h : Stored (store d p m) after directory p ms) :
    Stored d after directory p (m :: ms) := by
  have hkeeps : KeepsDirectories d after := hwritten.keeps.trans h.toKeepsDirectories
  have hpath : after.IsPathOf directory p := hkeeps.isPathOf hwritten.isPathOf
  have hset := fileAt?_set_append (x := .file m.content.toUTF8) hwritten.isPathOf.isDirectoryAt
    hwritten.notDirectory rfl
  have hfile : after.fileAt? (p ++ [m.fileName]) = some m.content.toUTF8 := by
    rw [h.other _ fun n hn heq => hne n hn (by simpa using heq.symm), store, hset, if_pos rfl]
    rfl
  have hread := read_joinPath hm hwritten.canBeNamed.2 hwritten.canBeNamed.1 hpath hfile
  exact {
    toKeepsDirectories := hkeeps
    isPathOf := fun _ => hpath
    fileAt? := List.forall_mem_cons.2 ⟨hfile, h.fileAt?⟩
    read := List.forall_mem_cons.2 ⟨hread, h.read⟩
    other := fun q hq => by
      obtain ⟨hqm, hq⟩ := List.forall_mem_cons.1 hq
      rw [h.other q hq, store, hset, if_neg hqm] }

/-- What is written in a directory does not change what else may be written there. -/
theorem canBeWritten_store {n : PlatformModule} (hwritten : CanBeWritten d directory p m)
    (hne : n.fileName ≠ m.fileName) :
    CanBeWritten (store d p m) directory p n ↔ CanBeWritten d directory p n := by
  have hsame : (store d p m).IsDirectoryAt (p ++ [n.fileName]) ↔
      d.IsDirectoryAt (p ++ [n.fileName]) := by
    rw [IsDirectoryAt, IsDirectoryAt, store,
      entryAt?_set_append_of_ne hwritten.isPathOf.isDirectoryAt hne]
  exact ⟨fun h => ⟨hwritten.isPathOf, h.canBeNamed, hsame.not.1 h.notDirectory⟩,
    fun h => ⟨hwritten.keeps.isPathOf h.isPathOf, h.canBeNamed, hsame.not.2 h.notDirectory⟩⟩

/-- The first of some modules that cannot be written is refused when it is written after those
before it. -/
structure Refused (before after : Disk) (directory : String) (p : Place) (ms : List PlatformModule)
    (k : Nat) (m : PlatformModule) (r : Refusal) : Prop where
  /-- So many modules come before it. -/
  getElem? : ms[k]? = some m
  /-- Those could be written. -/
  canBeWritten : ∀ n ∈ ms.take k, CanBeWritten before directory p n
  /-- It could not be written, wherever the path of the directory leads. -/
  notWritable : ∀ q, ¬CanBeWritten before directory q m
  /-- This is why it was not. -/
  refused : after.write (joinPath directory m.fileName) m.content.toUTF8 = .error r

theorem Refused.mem {k : Nat} {r : Refusal} (h : Refused d after directory p ms k m r) : m ∈ ms :=
  List.mem_of_getElem? h.getElem?

theorem Refused.zero {r : Refusal} (hp : ∀ q, d.IsPathOf directory q → q = p)
    (hm : IsFileName m.fileName)
    (hwrite : d.write (joinPath directory m.fileName) m.content.toUTF8 = .error r) :
    Refused d d directory p (m :: ms) 0 m r where
  getElem? := rfl
  canBeWritten := List.forall_mem_nil _
  notWritable q h := by
    obtain rfl := hp q h.isPathOf
    rw [(write_eq_ok hp hm).2 ⟨h, rfl⟩] at hwrite
    cases hwrite
  refused := hwrite

theorem Refused.cons {n : PlatformModule} {k : Nat} {r : Refusal}
    (hp : ∀ q, d.IsPathOf directory q → q = p) (hwritten : CanBeWritten d directory p m)
    (hne : ∀ n ∈ ms, n.fileName ≠ m.fileName)
    (h : Refused (store d p m) after directory p ms k n r) :
    Refused d after directory p (m :: ms) (k + 1) n r where
  getElem? := h.getElem?
  canBeWritten := List.forall_mem_cons.2 ⟨hwritten, fun n' hn' =>
    (canBeWritten_store hwritten (hne n' (List.mem_of_mem_take hn'))).1 (h.canBeWritten n' hn')⟩
  notWritable q hq := by
    obtain rfl := hp q hq.isPathOf
    exact h.notWritable q ((canBeWritten_store hwritten (hne n h.mem)).2 hq)
  refused := h.refused

namespace Session

variable {s : Session} {a : Arguments}

theorem writeEach_cons_of_error {r : Refusal}
    (h : s.disk.write (joinPath directory m.fileName) m.content.toUTF8 = .error r) :
    host.writeEach a directory (m :: ms) s =
      (.error (.writeFile (joinPath directory m.fileName) r), s) := by
  have hwrite : host.writeFile (joinPath directory m.fileName) m.content s = (.error r, s) := by
    simp only [host, h]
  rw [Host.writeEach, bind_of_eq hwrite]
  rfl

theorem writeEach_cons_of_ok (a : Arguments) (ms : List PlatformModule)
    (h : s.disk.write (joinPath directory m.fileName) m.content.toUTF8 = .ok d) :
    ∃ records, host.writeEach a directory (m :: ms) s =
      ((host.writeEach a directory ms { s with disk := d, records := records }).1.map
          (joinPath directory m.fileName :: ·),
        (host.writeEach a directory ms { s with disk := d, records := records }).2) := by
  have hwrite : host.writeFile (joinPath directory m.fileName) m.content s =
      (.ok (), { s with disk := d }) := by
    simp only [host, h]
  rw [Host.writeEach, bind_of_eq hwrite]
  dsimp only
  rw [bind_of_eq (logAll_host _ a _), bind_pure_apply]
  exact ⟨_, rfl⟩

/-- **Modules are written until the disk refuses one of them**, and that is the first that cannot be
written. -/
theorem writeEach_host (s : Session) (a : Arguments)
    (hp : ∀ q, s.disk.IsPathOf directory q → q = p) (hnames : ∀ m ∈ ms, IsFileName m.fileName)
    (hnodup : (ms.map (·.fileName)).Nodup) :
    (∃ after, host.writeEach a directory ms s =
        (.ok (ms.map fun m => joinPath directory m.fileName), after) ∧
      (∀ m ∈ ms, CanBeWritten s.disk directory p m) ∧ Stored s.disk after.disk directory p ms) ∨
    ∃ k m r after, host.writeEach a directory ms s =
        (.error (.writeFile (joinPath directory m.fileName) r), after) ∧
      Refused s.disk after.disk directory p ms k m r ∧
      Stored s.disk after.disk directory p (ms.take k) := by
  -- Each write changes the disk, but not what else may be written (`canBeWritten_store`), so the
  -- modules after the first can be judged by the disk before it.
  induction ms generalizing s with
  | nil => exact .inl ⟨s, rfl, List.forall_mem_nil _, .nil (.refl _)⟩
  | cons m ms ih =>
    obtain ⟨hm, hnames⟩ := List.forall_mem_cons.1 hnames
    obtain ⟨hnew, hnodup⟩ := List.nodup_cons.1 hnodup
    have hne : ∀ n ∈ ms, n.fileName ≠ m.fileName := fun n hn heq =>
      hnew (List.mem_map.2 ⟨n, hn, heq⟩)
    cases hwrite : s.disk.write (joinPath directory m.fileName) m.content.toUTF8 with
    | error r =>
      exact .inr ⟨0, m, r, s, writeEach_cons_of_error hwrite, .zero hp hm hwrite, .nil (.refl _)⟩
    | ok d =>
      obtain ⟨hwritten, rfl⟩ := (write_eq_ok hp hm).1 hwrite
      obtain ⟨records, hcons⟩ := writeEach_cons_of_ok a ms hwrite
      have hp' : ∀ q, (store s.disk p m).IsPathOf directory q → q = p := fun q hq =>
        hq.unique (hwritten.keeps.isPathOf hwritten.isPathOf)
      rcases ih { s with disk := store s.disk p m, records := records } hp' hnames hnodup with
        ⟨after, hrest, hall, hstored⟩ | ⟨k, n, r, after, hrest, hrefused, hstored⟩
      · rw [hrest] at hcons
        exact .inl ⟨after, hcons, List.forall_mem_cons.2 ⟨hwritten, fun n hn =>
          (canBeWritten_store hwritten (hne n hn)).1 (hall n hn)⟩, .cons hwritten hm hne hstored⟩
      · rw [hrest] at hcons
        exact .inr ⟨k + 1, n, r, after, hcons, hrefused.cons hp hwritten hne,
          .cons hwritten hm (fun n hn => hne n (List.mem_of_mem_take hn)) hstored⟩

theorem writeModules_host (s : Session) (a : Arguments) (directory : String)
    (ms : List PlatformModule) :
    host.writeModules a directory ms s = match s.disk.makeDirectories directory with
      | (d, .error r) => (.error (.makeDirectory directory r), { s with disk := d })
      | (d, .ok ()) => host.writeEach a directory ms { s with disk := d } := by
  have hmake : host.makeDirectories directory s = ((s.disk.makeDirectories directory).2,
      { s with disk := (s.disk.makeDirectories directory).1 }) := rfl
  rw [Host.writeModules, bind_of_eq hmake]
  obtain ⟨d, r | u⟩ := s.disk.makeDirectories directory <;> rfl

/-- A run with a directory for its modules writes them there. -/
theorem run_of_outDir (ha : a.outDir = some directory) (hms : s.modules a = .ok ms) :
    s.run a = ((host.writeModules a directory ms (s.prepared a)).1.map fun _ => (),
      (host.writeModules a directory ms (s.prepared a)).2) := by
  rw [run_eq, hms]
  unfold Host.deliver
  simp only [ha]
  exact bind_pure_apply _ _ _

/-- Modules that are written end up in the directory that is made for them, unless the disk refuses
one of them. -/
theorem writeModules_stored {made : Disk} (s : Session) (a : Arguments)
    (hnames : ∀ m ∈ ms, IsFileName m.fileName) (hnodup : (ms.map (·.fileName)).Nodup)
    (hmade : s.disk.makeDirectories directory = (made, .ok ()))
    (hp : ∀ q, made.IsPathOf directory q → q = p) :
    (∃ after, host.writeModules a directory ms s =
        (.ok (ms.map fun m => joinPath directory m.fileName), after) ∧
      (∀ m ∈ ms, CanBeWritten made directory p m) ∧ Stored s.disk after.disk directory p ms) ∨
    ∃ k m r after, host.writeModules a directory ms s =
        (.error (.writeFile (joinPath directory m.fileName) r), after) ∧
      Refused made after.disk directory p ms k m r ∧
      Stored s.disk after.disk directory p (ms.take k) := by
  have hadds : AddsDirectories s.disk made := by
    have h := s.disk.makeDirectories_adds directory
    rwa [hmade] at h
  rw [writeModules_host, hmade]
  rcases writeEach_host { s with disk := made } a hp hnames hnodup with
    ⟨after, hwrite, hall, hstored⟩ | ⟨k, m, r, after, hwrite, hrefused, hstored⟩
  · exact .inl ⟨after, hwrite, hall, hstored.of_adds hadds⟩
  · exact .inr ⟨k, m, r, after, hwrite, hrefused, hstored.of_adds hadds⟩

/-- A run that cannot make its directory changes no file. -/
theorem run_of_makeDirectories_eq_error {r : Refusal} (ha : a.outDir = some directory)
    (hms : s.modules a = .ok ms) (hmade : s.disk.makeDirectories directory = (d, .error r)) :
    (s.run a).1 = .error (.makeDirectory directory r) ∧
      ∀ q, (s.run a).2.disk.fileAt? q = s.disk.fileAt? q := by
  have hadds := s.disk.makeDirectories_adds directory
  rw [hmade] at hadds
  have hwrite := writeModules_host (s.prepared a) a directory ms
  have hmade' : (s.prepared a).disk.makeDirectories directory = (d, .error r) := hmade
  rw [hmade'] at hwrite
  rw [run_of_outDir ha hms, hwrite]
  exact ⟨rfl, hadds.fileAt?⟩

/-- After a run that succeeds all of its modules are in its directory. -/
theorem exists_stored_of_run_eq_ok (ha : a.outDir = some directory) (hms : s.modules a = .ok ms)
    (hok : (s.run a).1 = .ok ()) : ∃ p, Stored s.disk (s.run a).2.disk directory p ms := by
  cases hmade : (s.disk.makeDirectories directory).2 with
  | error r =>
    have hfail := run_of_makeDirectories_eq_error ha hms (Prod.ext rfl hmade)
    rw [hfail.1] at hok
    cases hok
  | ok _ =>
    obtain ⟨p, hp⟩ := exists_forall_isPathOf (s.disk.makeDirectories directory).1 directory
    rw [run_of_outDir ha hms] at hok ⊢
    rcases writeModules_stored (s.prepared a) a (isFileName_of_modules hms) (nodup_fileName hms)
      (Prod.ext rfl hmade) hp with
      ⟨after, hwrite, -, hstored⟩ | ⟨k, m, r, after, hwrite, -, -⟩
    · rw [hwrite]
      exact ⟨p, hstored⟩
    · rw [hwrite] at hok
      cases hok

/-- **The modules of a run are written into its directory**, each into a file of its own, and no
other file is changed. The run succeeds if and only if the directory is made and all of them can be
written there, and then they are all there. Otherwise the first that cannot be written is refused,
and those before it are there. -/
theorem run_outDir (s : Session) (ha : a.outDir = some directory) :
    (∀ f, s.modules a = .error f → (s.run a).1 = .error f ∧
      ∀ q, (s.run a).2.disk.fileAt? q = s.disk.fileAt? q) ∧
    ∀ ms, s.modules a = .ok ms →
      (∀ m ∈ ms, IsFileName m.fileName) ∧
      (ms.map fun m => joinPath directory m.fileName).Nodup ∧
      (∀ d r, s.disk.makeDirectories directory = (d, .error r) →
        (s.run a).1 = .error (.makeDirectory directory r) ∧
          ∀ q, (s.run a).2.disk.fileAt? q = s.disk.fileAt? q) ∧
      ∀ d, s.disk.makeDirectories directory = (d, .ok ()) →
        ((s.run a).1 = .ok () ↔ ∃ p, ∀ m ∈ ms, CanBeWritten d directory p m) ∧
        ((s.run a).1 = .ok () →
          (host.writeModules a directory ms (s.prepared a)).1 =
              .ok (ms.map fun m => joinPath directory m.fileName) ∧
            ∃ p, Stored s.disk (s.run a).2.disk directory p ms) ∧
        ∀ f, (s.run a).1 = .error f →
          ∃ p k m r, f = .writeFile (joinPath directory m.fileName) r ∧
            Refused d (s.run a).2.disk directory p ms k m r ∧
            Stored s.disk (s.run a).2.disk directory p (ms.take k) := by
  refine ⟨fun f hf => by simp [run_eq, hf, prepared, logged], fun ms hms => ?_⟩
  have hnames := isFileName_of_modules hms
  have hnodup := nodup_fileName hms
  have hrun := run_of_outDir ha hms
  refine ⟨hnames, ?_, fun d r => run_of_makeDirectories_eq_error ha hms, fun d hmade => ?_⟩
  · have hpaths := hnodup.map (f := joinPath directory) fun _ _ => joinPath_inj
    rwa [List.map_map] at hpaths
  · -- Making no directory succeeds for the empty path, wherever that leads.
    obtain ⟨p, hp⟩ := exists_forall_isPathOf d directory
    rw [hrun]
    rcases writeModules_stored (s.prepared a) a hnames hnodup hmade hp with
      ⟨after, hwrite, hall, hstored⟩ | ⟨k, m, r, after, hwrite, hrefused, hstored⟩
    · rw [hwrite]
      refine ⟨iff_of_true rfl ⟨p, hall⟩, fun _ => ⟨rfl, p, hstored⟩, ?_⟩
      rintro f ⟨⟩
    · rw [hwrite]
      refine ⟨iff_of_false ?_ ?_, ?_, ?_⟩
      · rintro ⟨⟩
      · rintro ⟨q, hall⟩
        exact hrefused.notWritable q (hall m hrefused.mem)
      · rintro ⟨⟩
      · rintro f ⟨⟩
        exact ⟨p, k, m, r, rfl, hrefused, hstored⟩

/-- Arguments that name one platform twice, and all platforms between. -/
def threePlatforms : Arguments := { platforms := ["ios", "", "ios"], outDir := some "out" }

/-- The text of a module of nothing, with the line for its platform. -/
def emptyModule (platformLine : String) : String :=
  "// This file was generated by tailwindcss-react-native. Do not edit!\n" ++
  "const \x7b StyleSheet \x7d = require(\"react-native\")\n" ++
  "module.exports = \x7b\n" ++ platformLine ++
  "  styles: StyleSheet.create(\x7b\x7d),\n  atRules: \x7b\x7d,\n  masks: \x7b\x7d,\n" ++
  "  topics: \x7b\x7d,\n\x7d\n"

theorem modules_threePlatforms : blank.modules threePlatforms =
    .ok [⟨some "ios", emptyModule "  platform: 'ios',\n"⟩, ⟨none, emptyModule ""⟩] := by
  have htargets : Platform.targets ["ios", "", "ios"] = [some "ios", none] := by decide
  have hfit : Platform.unfit? ["ios", "", "ios"] = none := by decide
  have hios : Generator.layout {} { styles := "StyleSheet.create(\x7b\x7d)" } (some "ios") =
      emptyModule "  platform: 'ios',\n" := by decide +kernel
  have hall : Generator.layout {} { styles := "StyleSheet.create(\x7b\x7d)" } none =
      emptyModule "" := by decide +kernel
  rw [modules_blank rfl rfl, if_neg (by decide), ← hios, ← hall]
  simp only [threePlatforms, hfit, htargets]
  rfl

/-- A session where the file of a module would have the name of a directory. -/
def occupied : Session :=
  { blank with disk :=
      { current := [], entries := [("out", .directory [("styles.js", .directory [])])] } }

theorem modules_occupied : occupied.modules threePlatforms = blank.modules threePlatforms := by
  have htext : occupied.extractionText threePlatforms = blank.extractionText threePlatforms := rfl
  have hoptions : occupied.options threePlatforms = blank.options threePlatforms := rfl
  rw [modules, modules, generated, generated, htext, hoptions]

/-- Two modules are written into a directory that is made for them, and are read from there. Where a
directory has the name of one of them, the run does not succeed. -/
theorem run_outDir_blank : threePlatforms.outDir = some "out" ∧
    (blank.run threePlatforms).1 = .ok () ∧
    (blank.run threePlatforms).2.disk.read "out/styles.ios.js" =
      .ok (emptyModule "  platform: 'ios',\n").toUTF8 ∧
    (blank.run threePlatforms).2.disk.read "out/styles.js" = .ok (emptyModule "").toUTF8 ∧
    (occupied.run threePlatforms).1 ≠ .ok () := by
  obtain ⟨-, -, -, hwritten⟩ := (run_outDir blank rfl).2 _ modules_threePlatforms
  obtain ⟨hok, hstored, -⟩ := hwritten { current := [], entries := [("out", .directory [])] } rfl
  have hruns : (blank.run threePlatforms).1 = .ok () := by
    refine hok.2 ⟨["out"], List.forall_mem_cons.2 ⟨⟨⟨_, rfl, rfl⟩, ?_, id⟩,
      List.forall_mem_singleton.2 ⟨⟨_, rfl, rfl⟩, ?_, id⟩⟩⟩ <;> decide +kernel
  obtain ⟨-, p, hstored⟩ := hstored hruns
  have hoccupied : (occupied.run threePlatforms).1 ≠ .ok () := by
    obtain ⟨-, -, -, hwritten⟩ := (run_outDir occupied rfl).2 _
      (modules_occupied.trans modules_threePlatforms)
    rw [Ne, (hwritten occupied.disk rfl).1]
    rintro ⟨q, hall⟩
    have hwritten := hall ⟨none, emptyModule ""⟩ (by simp)
    obtain rfl : ["out"] = q := LeadsTo.unique ⟨_, rfl, rfl⟩ hwritten.isPathOf
    exact hwritten.notDirectory trivial
  exact ⟨rfl, hruns, hstored.read ⟨some "ios", emptyModule "  platform: 'ios',\n"⟩ (by simp),
    hstored.read ⟨none, emptyModule ""⟩ (by simp), hoccupied⟩

end Session

end StyleModule.Command
