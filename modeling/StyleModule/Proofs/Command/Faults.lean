import StyleModule.Command.Run
import StyleModule.Proofs.Command.Disk
import StyleModule.Proofs.Generator.Modules

/-!
# Runs that fail before anything is written

A run can be kept from writing anything by seven faults (`Session.faults`). The first of them in a
fixed order is what the run fails for, whatever else is wrong, and then the run leaves no trace but
in the log; without any of them a run that prints its modules succeeds
(`Session.run_eq_of_firstFault?`).

What is written, and where, is decided by the modules of the run alone (`Session.run_eq`).
-/

namespace StyleModule.Command

namespace Session

/-! ### What a run starts from -/

section

variable (s : Session) (a : Arguments)

/-- The JSON text of the extraction. -/
def extractionText : Except Failure String :=
  match a.inputFile? with
  | some path => (s.disk.readText path).mapError (.readFile path)
  | none => (decodeText s.input).mapError .readInput

/-- The options in the file for them, or the default ones. -/
def options : Except Failure Options :=
  match a.config with
  | none => .ok {}
  | some path =>
    match s.disk.readText path with
    | .error r => .error (.readConfig path r)
    | .ok text => (Options.read text).mapError (.invalidConfig path)

/-- What is generated before anything is written, with the log of it. -/
def generated : List Log.Record × Except Failure (List PlatformModule) :=
  match s.extractionText a with
  | .error f => ([], .error f)
  | .ok json =>
    match s.options a with
    | .error f => ([], .error f)
    | .ok o => produce (a.override o) json a.platforms

/-- The modules that are generated. -/
def modules : Except Failure (List PlatformModule) := (s.generated a).2

/-- What is left once some records are in the log. -/
def logged (records : List Log.Record) : Session :=
  { s with records := s.records ++ records.filter (·.isShown a.logLevel) }

/-- What is left once all that comes before writing is in the log. -/
def prepared : Session := s.logged a (s.generated a).1

/-! ### Faults -/

/-- The extraction cannot be read. -/
def inputFault? : Option Failure := failure? (s.extractionText a)

/-- The file with the options cannot be read. -/
def configFault? : Option Failure :=
  a.config.bind fun path => (failure? (s.disk.readText path)).map (.readConfig path)

/-- The file with the options does not hold any. -/
def optionsFault? : Option Failure :=
  a.config.bind fun path => (s.disk.readText path).toOption.bind fun text =>
    (failure? (Options.read text)).map (.invalidConfig path)

/-- The text of the extraction does not hold one. -/
def extractionFault? : Option Failure :=
  (s.extractionText a).toOption.bind fun text =>
    (failure? (Extraction.read text)).map .invalidExtraction

/-- The tool's name, as the arguments and the options have it, does not stay in its comment. -/
def headerFault? : Option Failure :=
  (s.options a).toOption.bind fun o =>
    if (a.override o).header.toolName.toList.any Generator.endsLine then
      some (.problem .brokenHeader)
    else none

/-- A property names a member that the `StyleSheet` cannot have. -/
def referenceFault? : Option Failure :=
  (s.extractionText a).toOption.bind fun text => (Extraction.read text).toOption.bind fun e =>
    e.improper?.map fun r => .problem r.problem

end

/-- A platform cannot be a part of a file name. -/
def platformFault? (a : Arguments) : Option Failure :=
  (Platform.unfit? a.platforms).map fun name => .problem (.unfitPlatform name)

/-- All that can keep a run from writing anything, in the order in which it counts. -/
def faults (s : Session) (a : Arguments) : List (Option Failure) :=
  [s.inputFault? a, s.configFault? a, s.optionsFault? a, s.extractionFault? a, s.headerFault? a,
    s.referenceFault? a, platformFault? a]

/-- The first fault. -/
def firstFault? (s : Session) (a : Arguments) : Option Failure := (s.faults a).findSome? id

variable {s : Session} {a : Arguments}

/-! ### Steps of a run -/

theorem bind_of_eq {α β : Type} {x : StateM Session α} {f : α → StateM Session β} {s' : Session}
    {r : α} (h : x s = (r, s')) : (x >>= f) s = f r s' := by
  change (match x s with | (r, s') => f r s') = f r s'
  rw [h]

theorem bind_pure_apply {α β : Type} (x : StateM Session α) (f : α → β) (s : Session) :
    (x >>= fun r => pure (f r)) s = (f (x s).1, (x s).2) := rfl

theorem readExtraction_host (s : Session) (a : Arguments) :
    host.readExtraction a s = (s.extractionText a, s) := by
  unfold Host.readExtraction extractionText
  cases a.inputFile? <;> rfl

theorem readOptions_host (s : Session) (a : Arguments) :
    host.readOptions a s = (s.options a, s) := by
  have hread : ∀ path, host.readFile path s = (s.disk.readText path, s) := fun _ => rfl
  unfold Host.readOptions options
  cases a.config with
  | none => rfl
  | some path =>
    simp only [bind_of_eq (hread path)]
    cases s.disk.readText path <;> rfl

@[simp] theorem logged_nil (s : Session) (a : Arguments) : s.logged a [] = s := by
  simp [logged]

theorem logAll_host (s : Session) (a : Arguments) (records : List Log.Record) :
    host.logAll a records s = ((), s.logged a records) := by
  induction records generalizing s with
  | nil =>
    rw [logged_nil]
    rfl
  | cons r rs ih =>
    have hlog : host.log r s = ((), { s with records := s.records ++ [r] }) := rfl
    by_cases hr : r.isShown a.logLevel
    · simp [Host.logAll, hr, bind_of_eq hlog, ih, logged]
    · simp [Host.logAll, hr, ih, logged]

/-- A run generates all of its modules before it writes the first. -/
theorem run_eq (s : Session) (a : Arguments) :
    s.run a = match s.modules a with
      | .error f => (.error f, s.prepared a)
      | .ok ms => host.deliver a ms (s.prepared a) := by
  unfold Session.run Command.run modules prepared generated
  rw [bind_of_eq (readExtraction_host s a)]
  cases s.extractionText a with
  | error f =>
    rw [logged_nil]
    rfl
  | ok json =>
    dsimp only
    rw [bind_of_eq (readOptions_host s a)]
    cases s.options a with
    | error f =>
      rw [logged_nil]
      rfl
    | ok o =>
      dsimp only
      rw [bind_of_eq (logAll_host s a _)]
      cases (produce (a.override o) json a.platforms).2 <;> rfl

/-! ### The first fault -/

/-- What is generated for an extraction, or what keeps it from being generated. -/
theorem produce_eq (o : Options) (json : String) (platforms : List String) :
    (produce o json platforms).2 = match Extraction.read json with
      | .error e => .error (.invalidExtraction e)
      | .ok e =>
        if o.header.toolName.toList.any Generator.endsLine then .error (.problem .brokenHeader)
        else match e.exports o.exports with
          | .error p => .error (.problem p)
          | .ok x => match Platform.unfit? platforms with
            | some name => .error (.problem (.unfitPlatform name))
            | none => .ok <|
              (Platform.targets platforms).map (Generator.layoutModule o.header x) := by
  unfold produce
  cases Extraction.read json with
  | error e => rfl
  | ok e =>
    dsimp only
    by_cases hheader : o.header.toolName.toList.any Generator.endsLine = true
    · rw [if_pos hheader, Generator.ofOptions, Generator.make_eq_error hheader]
    · rw [if_neg hheader, Generator.ofOptions, Generator.make_eq_made (by simpa using hheader)]
      dsimp only
      have hexporter : (Generator.made o.header fun e => e.exports o.exports).exporter e =
          e.exports o.exports := rfl
      rw [hexporter]
      cases e.exports o.exports with
      | error p => rfl
      | ok x =>
        have hmodules := Generator.modulesOf_steps
          (Generator.assemble_made o.header (fun e => e.exports o.exports) x) platforms
        dsimp only
        rw [hmodules]
        cases Platform.unfit? platforms <;> rfl

theorem findSome?_id_cons {α : Type} (x : Option α) (xs : List (Option α)) :
    (x :: xs).findSome? id = x.or (xs.findSome? id) := by
  cases x <;> rfl

/-- Why nothing is generated for an extraction. -/
theorem failure?_produce (o : Options) (json : String) (platforms : List String) :
    failure? (produce o json platforms).2 = List.findSome? id
      [(failure? (Extraction.read json)).map .invalidExtraction,
        if o.header.toolName.toList.any Generator.endsLine then some (.problem .brokenHeader)
        else none,
        (Extraction.read json).toOption.bind fun e => e.improper?.map fun r => .problem r.problem,
        (Platform.unfit? platforms).map fun name => .problem (.unfitPlatform name)] := by
  rw [produce_eq]
  simp only [findSome?_id_cons]
  cases Extraction.read json with
  | error e => rfl
  | ok e =>
    dsimp only
    split_ifs
    · rfl
    · have hexports := e.failure?_exports o.exports
      cases hx : e.exports o.exports with
      | error p =>
        obtain ⟨r, hr, rfl⟩ := Option.map_eq_some_iff.1 (hexports.symm.trans (congrArg failure? hx))
        simp [Except.toOption, hr]
      | ok x =>
        have hr := Option.map_eq_none_iff.1 (hexports.symm.trans (congrArg failure? hx))
        cases Platform.unfit? platforms <;> simp [Except.toOption, hr]

theorem failure?_options (s : Session) (a : Arguments) :
    failure? (s.options a) = (s.configFault? a).or (s.optionsFault? a) := by
  unfold options configFault? optionsFault?
  cases a.config with
  | none => rfl
  | some path =>
    simp only [Option.bind_some]
    cases s.disk.readText path with
    | error r => rfl
    | ok text => simp [Except.toOption]

/-- The first fault is what keeps the modules from being generated. -/
theorem failure?_modules (s : Session) (a : Arguments) :
    failure? (s.modules a) = s.firstFault? a := by
  unfold modules generated firstFault? faults
  cases htext : s.extractionText a with
  | error f => simp [inputFault?, htext]
  | ok json =>
    have hinput : s.inputFault? a = none := by rw [inputFault?, htext, failure?_ok]
    have hconfig := failure?_options s a
    simp only [findSome?_id_cons, hinput, Option.none_or, ← Option.or_assoc, ← hconfig]
    cases hoptions : s.options a with
    | error f => rfl
    | ok o =>
      simp only [failure?_produce, findSome?_id_cons, Option.or_assoc, failure?_ok, Option.none_or]
      simp only [extractionFault?, headerFault?, referenceFault?, platformFault?, htext, hoptions,
        Except.toOption, Option.bind_some]

/-- What the modules of a run are. -/
theorem modules_eq_ok {ms : List PlatformModule} (h : s.modules a = .ok ms) :
    Platform.unfit? a.platforms = none ∧ ∃ header x,
      ms = (Platform.targets a.platforms).map (Generator.layoutModule header x) := by
  unfold modules generated at h
  split at h
  · cases h
  · split at h
    · cases h
    · rw [produce_eq] at h
      split at h
      · cases h
      · split_ifs at h
        split at h
        · cases h
        · split at h
          · cases h
          · next hfit => exact ⟨hfit, _, _, (Except.ok.inj h).symm⟩

/-- Modules are printed one after the other. -/
theorem run_of_outDir_eq_none (hnone : a.outDir = none) {ms : List PlatformModule}
    (hms : s.modules a = .ok ms) :
    s.run a = (.ok (), { s.prepared a with
      output := s.output ++ String.join (ms.map (·.content)) }) := by
  rw [run_eq, hms]
  unfold Host.deliver
  simp only [hnone]
  rfl

/-- **A run fails for the first fault that there is**, and then it changes no file, makes no
directory and prints nothing. Without any fault, a run that prints its modules succeeds. -/
theorem run_eq_of_firstFault? (s : Session) (a : Arguments) :
    (∀ f, s.firstFault? a = some f →
      ∃ records, s.run a = (.error f, { s with records := records })) ∧
    (s.firstFault? a = none → a.outDir = none →
      ∃ ms records, s.modules a = .ok ms ∧ s.run a =
        (.ok (), { s with
          output := s.output ++ String.join (ms.map (·.content)), records := records })) := by
  rw [← failure?_modules]
  constructor
  · intro f hf
    rw [run_eq, failure?_eq_some_iff.1 hf]
    exact ⟨_, rfl⟩
  · intro hf hnone
    obtain ⟨ms, hms⟩ := failure?_eq_none_iff.1 hf
    exact ⟨ms, _, hms, run_of_outDir_eq_none hnone hms⟩

/-- A session on an empty disk, with an extraction of nothing on standard input. -/
def blank : Session where
  disk := { current := [], entries := [] }
  input := "\x7b\x7d".toUTF8

/-- An extraction of nothing has modules for all platforms that are fit. -/
theorem modules_blank (hinput : a.inputFile? = none) (hconfig : a.config = none) :
    blank.modules a =
      if (a.override {}).header.toolName.toList.any Generator.endsLine then
        .error (.problem .brokenHeader)
      else match Platform.unfit? a.platforms with
        | some name => .error (.problem (.unfitPlatform name))
        | none => .ok <| (Platform.targets a.platforms).map <|
          Generator.layoutModule (a.override {}).header
            { styles := if (a.override {}).exports.stylesheetCreate then
                "StyleSheet.create(\x7b\x7d)" else "\x7b\x7d" } := by
  have htext : blank.extractionText a = .ok "\x7b\x7d" := by
    have hdecode : decodeText blank.input = .ok "\x7b\x7d" :=
      decodeText_toUTF8 "\x7b\x7d"
    simp only [extractionText, hinput, hdecode]
    rfl
  have hoptions : blank.options a = .ok {} := by rw [options, hconfig]
  have hread : Extraction.read "\x7b\x7d" = .ok .empty := by rfl
  have hexports : ∀ o, Extraction.empty.exports o = .ok
      { styles := if o.stylesheetCreate then "StyleSheet.create(\x7b\x7d)" else "\x7b\x7d" } := by
    rintro ⟨rfl | rfl⟩ <;> rfl
  simp only [modules, generated, htext, hoptions, produce_eq, hread, hexports]

/-- A tool's name of two lines counts before a platform that is no part of a file name, and neither
is there for other arguments. -/
theorem run_eq_of_firstFault?_blank :
    (∃ records, blank.run
      { platforms := ["ios", ".."], outDir := some "out", toolName := some "one\ntwo" } =
        (.error (.problem .brokenHeader), { blank with records := records })) ∧
    ∃ ms records, blank.modules { platforms := ["ios", "", "ios"] } = .ok ms ∧
      blank.run { platforms := ["ios", "", "ios"] } =
        (.ok (), { blank with
          output := blank.output ++ String.join (ms.map (·.content)), records := records }) := by
  constructor
  · refine (run_eq_of_firstFault? _ _).1 _ ?_
    rw [← failure?_modules, modules_blank rfl rfl]
    rfl
  · refine (run_eq_of_firstFault? _ _).2 ?_ rfl
    rw [← failure?_modules, modules_blank rfl rfl]
    rfl

end Session

end StyleModule.Command
