import StyleModule.Command.Run

/-!
# The program

`main` takes the arguments, runs the generator on the file system and the standard streams, and
says on the standard error stream why a run failed. It decides nothing: what a run does is told by
`Command.run`, here with a host that asks the system.
-/

namespace StyleModule.Command

/-- Why the system refused an operation. -/
def Refusal.ofError : IO.Error → Refusal
  | .noFileOrDirectory .. => .notFound
  | .alreadyExists .. => .exists
  | .inappropriateType _ code _ => if code = 21 then .isDirectory else .notDirectory
  | .invalidArgument _ code _ =>
    if code = 36 ∨ code = -36 then .nameTooLong else .other "Invalid argument (os error 22)"
  | e => .other (toString e)

/-- Do something that the system may refuse. -/
def attempt {α : Type} (action : IO α) : IO (Except Refusal α) := do
  match ← action.toBaseIO with
  | .ok a => return .ok a
  | .error e => return .error (.ofError e)

/-- All bytes of a stream, after those that have been read. -/
partial def readRest (stream : IO.FS.Stream) (start : ByteArray) : IO ByteArray := do
  let more ← stream.read 65536
  if more.isEmpty then return start
  readRest stream (start ++ more)

/-- The host that asks the system. -/
def systemHost : Host IO where
  readInput := return (← attempt do readRest (← IO.getStdin) .empty).bind decodeText
  readFile path := return (← attempt (IO.FS.readBinFile path)).bind decodeText
  makeDirectories path := attempt (IO.FS.createDirAll path)
  writeFile path text := attempt (IO.FS.writeBinFile path text.toUTF8)
  print text := do
    let output ← IO.getStdout
    output.putStr text
    output.flush
  log record := IO.eprintln record.line

/-- The lines that report a failure: what failed, and under it the causes. -/
def Failure.report (f : Failure) : List String :=
  match f.chain with
  | [] => []
  | [text] => ["Error: " ++ text]
  | text :: causes => ["Error: " ++ text, "", "Caused by:"] ++ causes.map ("    " ++ ·)

/-- How the program is used. -/
def usage : String :=
  "Usage: stylemodule [OPTIONS]\n\n" ++
  "  -i, --input <FILE>           Read the extraction from a file, not from standard input\n" ++
  "  -p, --platform <NAME>        Generate a module for a platform; may be repeated\n" ++
  "  -o, --out-dir <DIRECTORY>    Write the modules into a directory\n" ++
  "  -c, --config <FILE>          Read options from a file\n" ++
  "      --tool-name <NAME>       Name this tool in the header\n" ++
  "      --ui-framework <NAME>    Take the style sheets from this framework\n" ++
  "      --no-stylesheet-create   Write the styles as a plain object\n" ++
  "  -v, --verbose                Log more; may be repeated\n" ++
  "  -q, --quiet                  Log less; may be repeated\n" ++
  "  -h, --help                   Show this text\n" ++
  "  -V, --version                Show the version"

/-- The words for arguments that are refused. -/
def UsageError.message : UsageError → String
  | displayHelp => usage
  | displayVersion => "stylemodule"
  | unknownArgument => "error: unexpected argument"
  | invalidValue => "error: an option needs a value"
  | argumentConflict => "error: arguments that exclude each other"
  | tooManyValues => "error: a switch takes no value"

/-- Whether the words for refused arguments are what was asked for. -/
def UsageError.isAnswer : UsageError → Bool
  | displayHelp | displayVersion => true
  | _ => false

/-- Run the generator with the arguments after the name of the program. The result is zero if the
run succeeds, one if it fails, and two if the arguments are refused. -/
def start (args : List String) : IO UInt32 := do
  match Arguments.parse args with
  | .error e =>
    if e.isAnswer then
      IO.println e.message
      return 0
    IO.eprintln e.message
    return 2
  | .ok a =>
    match ← run systemHost a with
    | .ok () => return 0
    | .error f =>
      f.report.forM IO.eprintln
      return 1

end StyleModule.Command

/-- The program. -/
def main (args : List String) : IO UInt32 := StyleModule.Command.start args
