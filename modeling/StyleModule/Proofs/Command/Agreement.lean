import StyleModule.Proofs.Command.AllOrNothing

/-!
# Printing modules and writing them into a directory

A run prints its modules one after the other, or writes them into a directory. Both come to the same
(`Session.run_outDir_eq_printed`): what keeps a run from printing keeps it from writing anything,
and what was written, read back for one platform after the other, is what would have been printed.
-/

namespace StyleModule.Command

open Disk

/-- The path of the module for a platform. -/
def modulePath (directory : String) (platform : Option String) : String :=
  joinPath directory (PlatformModule.mk platform "").fileName

/-- The text of a module that was written is read from its path. -/
theorem Stored.readText {before after : Disk} {directory : String} {p : Place}
    {ms : List PlatformModule} (h : Stored before after directory p ms) {m : PlatformModule}
    (hm : m ∈ ms) : after.readText (modulePath directory m.platform) = .ok m.content := by
  have hread : after.read (modulePath directory m.platform) = .ok m.content.toUTF8 := h.read m hm
  rw [Disk.readText, hread]
  exact decodeText_toUTF8 m.content

namespace Session

variable {s : Session} {a : Arguments} {directory : String}

/-- What was written by a run that succeeded is read back, for one platform after the other. -/
theorem mapM_readText_run (ha : a.outDir = some directory) {ms : List PlatformModule}
    (hms : s.modules a = .ok ms) (hok : (s.run a).1 = .ok ()) :
    (Platform.targets a.platforms).mapM (fun platform =>
      (s.run a).2.disk.readText (modulePath directory platform)) = .ok (ms.map (·.content)) := by
  obtain ⟨p, hstored⟩ := exists_stored_of_run_eq_ok ha hms hok
  obtain ⟨-, header, x, rfl⟩ := modules_eq_ok hms
  rw [List.map_map]
  exact mapM_eq_ok_map fun platform hplatform =>
    hstored.readText (m := Generator.layoutModule header x platform)
      (List.mem_map_of_mem hplatform)

/-- **Modules that are written into a directory are those that would be printed**, in the order in
which the platforms are named first, and a run that could not print them writes nothing. -/
theorem run_outDir_eq_printed (s : Session) (a : Arguments) (directory : String) :
    (∀ f, (s.run { a with outDir := none }).1 = .error f →
      (s.run { a with outDir := some directory }).1 = .error f ∧
        (s.run { a with outDir := some directory }).2.disk = s.disk) ∧
    ((s.run { a with outDir := none }).1 = .ok () →
      (s.run { a with outDir := some directory }).1 = .ok () →
        ∃ texts, (Platform.targets a.platforms).mapM (fun platform =>
            (s.run { a with outDir := some directory }).2.disk.readText
              (modulePath directory platform)) = .ok texts ∧
          (s.run { a with outDir := none }).2.output = s.output ++ String.join texts) := by
  have hsame : s.modules { a with outDir := some directory } =
      s.modules { a with outDir := none } := rfl
  cases hms : s.modules { a with outDir := none } with
  | error f => simp [run_eq, hsame, hms, prepared, logged]
  | ok ms =>
    rw [run_of_outDir_eq_none rfl hms]
    refine ⟨fun f hf => ?_, fun _ hok => ⟨_, mapM_readText_run rfl (hsame.trans hms) hok, rfl⟩⟩
    cases hf

/-- Two modules are printed, or written into an empty directory. -/
theorem run_outDir_eq_printed_blank :
    ∃ texts, (Platform.targets ["ios", "", "ios"]).mapM (fun platform =>
        (blank.run { platforms := ["ios", "", "ios"], outDir := some "." }).2.disk.readText
          (modulePath "." platform)) = .ok texts ∧
      (blank.run { platforms := ["ios", "", "ios"] }).2.output =
        blank.output ++ String.join texts := by
  have hagree := (run_outDir_eq_printed blank { platforms := ["ios", "", "ios"] } ".").2
  dsimp only at hagree
  refine hagree ?_ ?_
  · rw [run_eq, modules_blank rfl rfl]
    rfl
  · have hms := modules_blank (a := { platforms := ["ios", "", "ios"], outDir := some "." }) rfl rfl
    exact (run_plain rfl isPathOf_blank plain_blank hms).2.2 (by decide)

end Session

end StyleModule.Command
