import StyleModule.Command.Arguments
import StyleModule.Command.Disk
import StyleModule.Generator
import StyleModule.Options.Reader

/-!
# Running the generator

A run reads the extraction, then the options, generates all modules, and only then writes the
first of them: each into a file of a directory, or all of them to standard output. It ends at the
first failure, and files that were written before it stay.

What a run asks of its surroundings is a `Host`. `Session.host` answers from a file tree and the
text on standard input, so that what a run does to them can be told (`Session.run`).
-/

namespace StyleModule.Command

/-- Why a run ends without success. -/
inductive Failure where
  /-- Standard input cannot be read. -/
  | readInput (refusal : Refusal)
  /-- The file with the extraction cannot be read. -/
  | readFile (path : String) (refusal : Refusal)
  /-- The file with the options cannot be read. -/
  | readConfig (path : String) (refusal : Refusal)
  /-- The file with the options does not hold any. -/
  | invalidConfig (path : String) (error : Json.Error)
  /-- The text of the extraction does not hold one. -/
  | invalidExtraction (error : Json.Error)
  /-- No module can be generated. -/
  | problem (problem : Problem)
  /-- The directory for the modules cannot be made. -/
  | makeDirectory (path : String) (refusal : Refusal)
  /-- A module cannot be written. -/
  | writeFile (path : String) (refusal : Refusal)

/-- The words for a failure, followed by those for its causes. -/
def Failure.chain : Failure → List String
  | readInput r => ["Could not read stdin", r.message]
  | readFile path r => ["Could not read " ++ path, r.message]
  | readConfig path r => ["Could not read config file " ++ path, r.message]
  | invalidConfig path e => ["Invalid config file " ++ path, e.message]
  | invalidExtraction e => ["Invalid extracted values", e.message]
  | problem p => [p.message]
  | makeDirectory path r => ["Could not create " ++ path, r.message]
  | writeFile path r => ["Could not write " ++ path, r.message]

/-! ### Generating -/

/-- The modules for the JSON text of an extraction, and what is logged meanwhile. -/
def produce (options : Options) (json : String) (platforms : List String) :
    List Log.Record × Except Failure (List PlatformModule) :=
  match Extraction.read json with
  | .error e => ([], .error (.invalidExtraction e))
  | .ok e =>
    let counts := Generator.countsRecord e
    match Generator.ofOptions options with
    | .error p => ([counts], .error (.problem p))
    | .ok g =>
      match g.exporter e with
      | .error p => ([counts], .error (.problem p))
      | .ok exports =>
        let steps := Platform.steps platforms
        (counts :: steps.flatMap (Generator.stepRecords exports),
          match g.modulesOf exports steps with
          | .error p => .error (.problem p)
          | .ok modules => .ok modules)

/-! ### Surroundings -/

/-- What a run asks of its surroundings. -/
structure Host (m : Type → Type) where
  /-- All of standard input. -/
  readInput : m (Except Refusal String)
  /-- The text of a file. -/
  readFile : String → m (Except Refusal String)
  /-- Make a directory and those around it. -/
  makeDirectories : String → m (Except Refusal Unit)
  /-- Write a file. -/
  writeFile : String → String → m (Except Refusal Unit)
  /-- Write to standard output. -/
  print : String → m Unit
  /-- Show a record of the log. -/
  log : Log.Record → m Unit

namespace Host

variable {m : Type → Type} [Monad m] (host : Host m)

/-- Show the records that the arguments ask for. -/
def logAll (a : Arguments) : List Log.Record → m Unit
  | [] => pure ()
  | r :: rs => do
    if r.isShown a.logLevel then host.log r
    logAll a rs

/-- The JSON text of the extraction. -/
def readExtraction (a : Arguments) : m (Except Failure String) := do
  match a.inputFile? with
  | some path => return (← host.readFile path).mapError (.readFile path)
  | none => return (← host.readInput).mapError .readInput

/-- The options in the file for them, or the default ones. -/
def readOptions (a : Arguments) : m (Except Failure Options) := do
  match a.config with
  | none => return .ok {}
  | some path =>
    match ← host.readFile path with
    | .error r => return .error (.readConfig path r)
    | .ok text => return (Options.read text).mapError (.invalidConfig path)

/-- Write modules into a directory, one after the other. The result is the paths of their files. -/
def writeEach (a : Arguments) (directory : String) :
    List PlatformModule → m (Except Failure (List String))
  | [] => pure (.ok [])
  | m :: ms => do
    let path := joinPath directory m.fileName
    match ← host.writeFile path m.content with
    | .error r => return .error (.writeFile path r)
    | .ok () =>
      host.logAll a [⟨.info, "Wrote " ++ path⟩]
      return (← writeEach a directory ms).map (path :: ·)

/-- Write modules into a directory, which is made if it is missing. -/
def writeModules (a : Arguments) (directory : String) (modules : List PlatformModule) :
    m (Except Failure (List String)) := do
  match ← host.makeDirectories directory with
  | .error r => return .error (.makeDirectory directory r)
  | .ok () => host.writeEach a directory modules

/-- Put modules where the arguments want them. -/
def deliver (a : Arguments) (modules : List PlatformModule) : m (Except Failure Unit) := do
  match a.outDir with
  | none =>
    host.print (String.join (modules.map (·.content)))
    return .ok ()
  | some directory => return (← host.writeModules a directory modules).map fun _ => ()

end Host

/-- The options of a run: what the arguments say comes before what the options say. -/
def Arguments.override (a : Arguments) (o : Options) : Options where
  header := {
    toolName := a.toolName.getD o.header.toolName
    uiFramework := a.uiFramework.getD o.header.uiFramework }
  exports := { stylesheetCreate := o.exports.stylesheetCreate && !a.noStylesheetCreate }

/-- Run the generator. -/
def run {m : Type → Type} [Monad m] (host : Host m) (a : Arguments) :
    m (Except Failure Unit) := do
  match ← host.readExtraction a with
  | .error e => return .error e
  | .ok json =>
    match ← host.readOptions a with
    | .error e => return .error e
    | .ok options =>
      let (records, modules) := produce (a.override options) json a.platforms
      host.logAll a records
      match modules with
      | .error e => return .error e
      | .ok modules => host.deliver a modules

/-! ### Runs on a file tree -/

/-- The surroundings of a run on a file tree. -/
structure Session where
  /-- The file tree. -/
  disk : Disk
  /-- What is on standard input. -/
  input : ByteArray
  /-- What has been written to standard output. -/
  output : String := ""
  /-- What has been logged. -/
  records : List Log.Record := []

namespace Session

/-- A host that answers from a file tree and keeps what is written. -/
def host : Host (StateM Session) where
  readInput := fun s => (decodeText s.input, s)
  readFile path := fun s => (s.disk.readText path, s)
  makeDirectories path := fun s =>
    let (disk, result) := s.disk.makeDirectories path
    (result, { s with disk := disk })
  writeFile path text := fun s =>
    match s.disk.write path text.toUTF8 with
    | .ok disk => (.ok (), { s with disk := disk })
    | .error r => (.error r, s)
  print text := fun s => ((), { s with output := s.output ++ text })
  log record := fun s => ((), { s with records := s.records ++ [record] })

/-- Run the generator on a file tree. -/
def run (s : Session) (a : Arguments) : Except Failure Unit × Session := Command.run host a s

end Session

end StyleModule.Command
