import StyleModule.Proofs.Command.Delivery

/-!
# When a failed run has written something

A platform that is fit may still be too long for the name of a file. In a directory without
directories inside, that is all that can keep a module from being written: those before the first
one whose name or path is too long are written, and the run succeeds if there is none
(`Session.run_plain`). So a run that fails has changed nothing just if none comes before it, or
those before it were there already.
-/

namespace StyleModule.Command

open Disk

theorem checkPath_eq_ok {path : String} :
    checkPath path = .ok () ↔ '\x00' ∉ path.toList ∧ path.utf8ByteSize ≤ maxPathBytes := by
  unfold checkPath
  split_ifs <;> simp_all

theorem exists_joinPath_eq_append (directory file : String) :
    ∃ rest, joinPath directory file = directory ++ rest := by
  unfold joinPath
  split_ifs
  · exact ⟨file, rfl⟩
  · exact ⟨"/" ++ file, String.append_assoc⟩

/-- A path is not too long if that of a file behind it is not. -/
theorem CanBeNamed.checkPath {directory : String} {m : PlatformModule}
    (h : CanBeNamed directory m) : checkPath directory = .ok () := by
  obtain ⟨rest, hrest⟩ := exists_joinPath_eq_append directory m.fileName
  obtain ⟨hnul, hsize⟩ := checkPath_eq_ok.1 h.2
  rw [hrest, String.toList_append, List.mem_append, not_or] at hnul
  rw [hrest, String.utf8ByteSize_append] at hsize
  exact checkPath_eq_ok.2 ⟨hnul.1, by omega⟩

variable {d after : Disk} {directory : String} {p : Place} {ms : List PlatformModule}

/-- Storing modules changes nothing just if all of them were there. -/
theorem Stored.same_iff (h : Stored d after directory p ms) :
    (∀ q, after.fileAt? q = d.fileAt? q) ↔
      ∀ m ∈ ms, d.fileAt? (p ++ [m.fileName]) = some m.content.toUTF8 := by
  constructor
  · intro hsame m hm
    rw [← hsame]
    exact h.fileAt? m hm
  · intro hthere q
    by_cases hq : ∃ m ∈ ms, q = p ++ [m.fileName]
    · obtain ⟨m, hm, rfl⟩ := hq
      rw [h.fileAt? m hm, hthere m hm]
    · exact h.other q fun m hm heq => hq ⟨m, hm, heq⟩

namespace Session

variable {s : Session} {a : Arguments}

/-- In a directory without directories inside, modules are written up to the first one whose name or
path is too long, and the run succeeds if there is none. -/
theorem run_plain (ha : a.outDir = some directory) (hp : s.disk.IsPathOf directory p)
    (hplain : ∀ name, ¬s.disk.IsDirectoryAt (p ++ [name])) (hms : s.modules a = .ok ms) :
    Stored s.disk (s.run a).2.disk directory p (ms.takeWhile (CanBeNamed directory)) ∧
      ((s.run a).1 = .ok () ↔ ∀ m ∈ ms, CanBeNamed directory m) := by
  have hmake : (s.prepared a).disk.makeDirectories directory = (s.disk, checkPath directory) :=
    makeDirectories_of_isPathOf hp
  rw [run_of_outDir ha hms]
  cases hcheck : checkPath directory with
  | error r =>
    have hnone : ∀ m, ¬CanBeNamed directory m := fun m hm => by
      rw [hm.checkPath] at hcheck
      cases hcheck
    obtain ⟨m, ms, rfl⟩ := List.exists_cons_of_ne_nil (modules_ne_nil hms)
    rw [writeModules_host, hmake, hcheck]
    refine ⟨?_, ?_⟩
    · simpa [hnone m] using Stored.nil (.refl s.disk)
    · simp only [Except.map, reduceCtorEq, false_iff]
      exact fun hall => hnone m (hall m (by simp))
  | ok _ =>
    rw [hcheck] at hmake
    rcases writeModules_stored (s.prepared a) a (isFileName_of_modules hms) (nodup_fileName hms)
      hmake (fun q hq => LeadsTo.unique hq hp) with
      ⟨after, hwrite, hall, hstored⟩ | ⟨k, m, r, after, hwrite, hrefused, hstored⟩
    · have hnamed : ∀ m ∈ ms, CanBeNamed directory m := fun m hm => (hall m hm).canBeNamed
      rw [hwrite, List.takeWhile_eq_self_iff.2 (by simpa using hnamed)]
      exact ⟨hstored, iff_of_true rfl hnamed⟩
    · have hbefore : ∀ n ∈ ms.take k, CanBeNamed directory n := fun n hn =>
        (hrefused.canBeWritten n hn).canBeNamed
      have hfail : ¬CanBeNamed directory m := fun hm =>
        hrefused.notWritable p ⟨hp, hm, hplain _⟩
      have htake : ms.takeWhile (CanBeNamed directory) = ms.take k := by
        obtain ⟨hlt, rfl⟩ := List.getElem?_eq_some_iff.1 hrefused.getElem?
        conv_lhs => rw [← List.take_append_drop k ms, List.drop_eq_getElem_cons hlt]
        rw [List.takeWhile_append_of_pos (by simpa using hbefore),
          List.takeWhile_cons_of_neg (by simpa using hfail), List.append_nil]
      rw [hwrite, htake]
      refine ⟨hstored, iff_of_false ?_ fun hall => hfail (hall m hrefused.mem)⟩
      rintro ⟨⟩

/-- **When a failed run has changed nothing**, in a directory without directories inside: if all
modules could be written, or those before the first one whose name or path is too long were there
already. -/
theorem run_plain_same_iff (ha : a.outDir = some directory) (hp : s.disk.IsPathOf directory p)
    (hplain : ∀ name, ¬s.disk.IsDirectoryAt (p ++ [name])) :
    ((s.run a).1 = .ok () ↔ ∃ ms, s.modules a = .ok ms ∧ ∀ m ∈ ms, CanBeNamed directory m) ∧
    (((s.run a).1 ≠ .ok () → ∀ q, (s.run a).2.disk.fileAt? q = s.disk.fileAt? q) ↔
      ∀ ms, s.modules a = .ok ms → (∀ m ∈ ms, CanBeNamed directory m) ∨
        ∀ m ∈ ms.takeWhile (CanBeNamed directory),
          s.disk.fileAt? (p ++ [m.fileName]) = some m.content.toUTF8) := by
  cases hms : s.modules a with
  | error f => simp [run_eq, hms, prepared, logged]
  | ok ms =>
    obtain ⟨hstored, hok⟩ := run_plain ha hp hplain hms
    simp only [Except.ok.injEq, exists_eq_left', forall_eq', ne_eq, hok, hstored.same_iff,
      Classical.or_iff_not_imp_left, and_true]

theorem isPathOf_blank : blank.disk.IsPathOf "." [] := ⟨[], rfl, rfl⟩

theorem plain_blank (name : String) : ¬blank.disk.IsDirectoryAt ([] ++ [name]) := id

/-- Two modules are written into an empty directory. -/
theorem run_plain_same_iff_blank :
    (blank.run { platforms := ["ios", "", "ios"], outDir := some "." }).1 = .ok () := by
  refine (run_plain_same_iff rfl isPathOf_blank plain_blank).1.2 ⟨_, modules_blank rfl rfl, ?_⟩
  decide

/-- A platform of which the name of a file becomes longer than it can be. -/
def longPlatform : String := String.ofList (List.replicate 246 'a')

/-- Arguments for two modules, the second of which cannot be written. -/
def longArguments : Arguments := { platforms := ["a", longPlatform], outDir := some "." }

theorem isFit_longPlatform : Platform.isFit longPlatform := by
  have hlist : longPlatform.toList = List.replicate 246 'a' := String.toList_ofList
  have hlength : longPlatform.toList.length = 246 := by rw [hlist, List.length_replicate]
  have hdot : longPlatform ≠ "." := ne_of_length_lt (by rw [hlength]; decide)
  have hdots : longPlatform ≠ ".." := ne_of_length_lt (by rw [hlength]; decide)
  rw [Platform.isFit, hlist, List.any_replicate]
  simp only [Bool.and_eq_true, bne_iff_ne]
  exact ⟨⟨hdot, hdots⟩, rfl⟩

theorem modules_blank_long : ∃ m n, blank.modules longArguments = .ok [m, n] ∧
    CanBeNamed "." m ∧ ¬CanBeNamed "." n := by
  have htargets : Platform.targets ["a", longPlatform] = [some "a", some longPlatform] := by
    decide +kernel
  have hfit : Platform.unfit? ["a", longPlatform] = none := by
    have hshort : Platform.isFit "a" = true := by decide
    simp [Platform.unfit?, hshort, isFit_longPlatform]
  rw [modules_blank rfl rfl, if_neg (by decide)]
  simp only [longArguments, hfit, htargets]
  refine ⟨_, _, rfl, ?_, ?_⟩ <;> decide +kernel

/-- A run can write one module and then fail, although all of its platforms are fit. -/
theorem not_run_plain_same : ¬∀ (s : Session) (a : Arguments) (directory : String) (p : Place),
    a.outDir = some directory → s.disk.IsPathOf directory p →
      (∀ name, ¬s.disk.IsDirectoryAt (p ++ [name])) → (s.run a).1 ≠ .ok () →
        ∀ q, (s.run a).2.disk.fileAt? q = s.disk.fileAt? q := by
  intro h
  obtain ⟨m, n, hms, hm, hn⟩ := modules_blank_long
  obtain ⟨hstored, hok⟩ := run_plain rfl isPathOf_blank plain_blank hms
  have hfails : (blank.run longArguments).1 ≠ .ok () := fun hsucceeds =>
    hn (hok.1 hsucceeds n (by simp))
  have hfirst : [m, n].takeWhile (CanBeNamed ".") = [m] := by simp [hm, hn]
  rw [hfirst] at hstored
  have hsame := h blank longArguments "." [] rfl isPathOf_blank plain_blank hfails
  have hthere := hstored.same_iff.1 hsame m (by simp)
  have hempty : blank.disk.fileAt? ([] ++ [m.fileName]) = none := rfl
  rw [hempty] at hthere
  cases hthere

end Session

end StyleModule.Command
