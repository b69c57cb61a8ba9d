import StyleModule.Log

/-!
# Command line arguments

`Arguments.parse` reads the words after the name of the program. An option takes a value, attached
to it or in the next word; a switch takes none. Short options and switches are single letters, and
several may share one word.

An option with its value in the next word is only `settled` when the next option or switch is met,
or at the end. Words that make no sense are refused at once, so they are reported before anything
that is wrong with an option that is not settled.
-/

namespace StyleModule.Command

/-- Why arguments are refused, or not acted upon. -/
inductive UsageError where
  | displayHelp
  | displayVersion
  | unknownArgument
  | invalidValue
  | argumentConflict
  | tooManyValues
deriving DecidableEq, Repr

/-- What takes a value. -/
inductive Opt where
  | input
  | platform
  | outDir
  | config
  | toolName
  | uiFramework
deriving DecidableEq, Repr

/-- What takes no value. -/
inductive Switch where
  | noStylesheetCreate
  | verbose
  | quiet
  | help
  | version
deriving DecidableEq, Repr

/-- The arguments of one run. -/
structure Arguments where
  /-- The file with the extraction. -/
  input : Option String := none
  /-- The platforms, in order. -/
  platforms : List String := []
  /-- The directory for the modules. -/
  outDir : Option String := none
  /-- The file with the options. -/
  config : Option String := none
  /-- The tool to name in place of the one among the options. -/
  toolName : Option String := none
  /-- The framework to name in place of the one among the options. -/
  uiFramework : Option String := none
  /-- Whether the styles are to be a plain object literal. -/
  noStylesheetCreate : Bool := false
  /-- How often more is to be logged. -/
  verbose : Nat := 0
  /-- How often less is to be logged. -/
  quiet : Nat := 0
deriving DecidableEq, Repr, Inhabited

namespace Arguments

/-- The file with the extraction, if it does not come from standard input. -/
def inputFile? (a : Arguments) : Option String := a.input.filter (· != "-")

/-- How much is logged. -/
def logLevel (a : Arguments) : Log.Level := .ofRank (Log.Level.info.rank + a.verbose - a.quiet)

end Arguments

/-! ### Names -/

/-- What a word after two dashes names. -/
def longName? (name : String) : Option (Opt ⊕ Switch) :=
  if name = "input" then some (.inl .input)
  else if name = "platform" then some (.inl .platform)
  else if name = "out-dir" then some (.inl .outDir)
  else if name = "config" then some (.inl .config)
  else if name = "tool-name" then some (.inl .toolName)
  else if name = "ui-framework" then some (.inl .uiFramework)
  else if name = "no-stylesheet-create" then some (.inr .noStylesheetCreate)
  else if name = "verbose" then some (.inr .verbose)
  else if name = "quiet" then some (.inr .quiet)
  else if name = "help" then some (.inr .help)
  else if name = "version" then some (.inr .version)
  else none

/-- What a letter after one dash names. -/
def shortName? (c : Char) : Option (Opt ⊕ Switch) :=
  if c = 'i' then some (.inl .input)
  else if c = 'p' then some (.inl .platform)
  else if c = 'o' then some (.inl .outDir)
  else if c = 'c' then some (.inl .config)
  else if c = 'v' then some (.inr .verbose)
  else if c = 'q' then some (.inr .quiet)
  else if c = 'h' then some (.inr .help)
  else if c = 'V' then some (.inr .version)
  else none

/-! ### Options and switches -/

/-- A value for something that may be given once. -/
def once (old : Option String) (value : String) : Except UsageError (Option String) :=
  if old.isSome then .error .argumentConflict else .ok (some value)

/-- A path for something that may be given once. -/
def oncePath (old : Option String) (path : String) : Except UsageError (Option String) := do
  let new ← once old path
  if path = "" then .error .invalidValue else .ok new

namespace Arguments

variable (a : Arguments)

/-- Give an option a value. -/
def give (value : String) : Opt → Except UsageError Arguments
  | .input => do return { a with input := ← oncePath a.input value }
  | .platform => .ok { a with platforms := a.platforms ++ [value] }
  | .outDir => do return { a with outDir := ← oncePath a.outDir value }
  | .config => do return { a with config := ← oncePath a.config value }
  | .toolName => do return { a with toolName := ← once a.toolName value }
  | .uiFramework => do return { a with uiFramework := ← once a.uiFramework value }

/-- Turn a switch. -/
def turn : Switch → Except UsageError Arguments
  | .noStylesheetCreate =>
    if a.noStylesheetCreate then .error .argumentConflict
    else .ok { a with noStylesheetCreate := true }
  | .verbose => .ok { a with verbose := a.verbose + 1 }
  | .quiet => .ok { a with quiet := a.quiet + 1 }
  | .help => .error .displayHelp
  | .version => .error .displayVersion

end Arguments

/-! ### Words -/

/-- How far the words have been read. -/
structure Progress where
  /-- What has been settled. -/
  settled : Arguments := {}
  /-- The last option, unless it is settled, with the value it was given. -/
  open? : Option (Opt × Option String) := none

namespace Progress

variable (p : Progress)

/-- Settle the last option. -/
def settle : Except UsageError Arguments :=
  match p.open? with
  | none => .ok p.settled
  | some (_, none) => .error .invalidValue
  | some (opt, some value) => p.settled.give value opt

/-- Take an option, with its value if that is attached to it. -/
def take (opt : Opt) (attached : Option String) : Except UsageError Progress := do
  let a ← p.settle
  match attached with
  | none => return { settled := a, open? := some (opt, none) }
  | some value => return { settled := ← a.give value opt }

/-- Take a switch. -/
def takeSwitch (s : Switch) : Except UsageError Progress := do
  let a ← p.settle
  return { settled := ← a.turn s }

/-- A text without the equals sign that it starts with. -/
def dropEquals : List Char → List Char
  | '=' :: cs => cs
  | cs => cs

/-- Take the letters of a word after one dash. What follows an option is its value. -/
def takeLetters : Progress → List Char → Except UsageError Progress
  | p, [] => .ok p
  | p, c :: cs =>
    match shortName? c with
    | none => .error .unknownArgument
    | some (.inr s) => do takeLetters (← p.takeSwitch s) cs
    | some (.inl opt) =>
      p.take opt (if cs.isEmpty then none else some (String.ofList (dropEquals cs)))

/-- Take what follows two dashes: a name, and a value after an equals sign. -/
def takeLong (word : List Char) : Except UsageError Progress :=
  let name := String.ofList (word.takeWhile (· != '='))
  let attached := match word.dropWhile (· != '=') with
    | [] => none
    | _ :: value => some (String.ofList value)
  match longName? name, attached with
  | none, _ => .error .unknownArgument
  | some (.inl opt), attached => p.take opt attached
  | some (.inr s), none => p.takeSwitch s
  | some (.inr _), some _ => .error .tooManyValues

/-- Take a word without dashes: it is the value that the last option waits for. -/
def takeValue (word : String) : Except UsageError Progress :=
  match p.open? with
  | some (opt, none) => .ok { p with open? := some (opt, some word) }
  | _ => .error .unknownArgument

/-- Take a word. -/
def takeWord (word : String) : Except UsageError Progress :=
  match word.toList with
  | '-' :: '-' :: cs => p.takeLong cs
  | '-' :: c :: cs => p.takeLetters (c :: cs)
  | _ => p.takeValue word

/-- Take all words. After two dashes alone no word makes sense. -/
def takeWords : Progress → List String → Except UsageError Arguments
  | p, [] => p.settle
  | p, word :: words =>
    if word = "--" then (if words.isEmpty then p.settle else .error .unknownArgument)
    else do takeWords (← p.takeWord word) words

end Progress

/-- The arguments that some words stand for. More and less may not both be logged. -/
def Arguments.parse (words : List String) : Except UsageError Arguments := do
  let a ← Progress.takeWords {} words
  if 0 < a.verbose ∧ 0 < a.quiet then .error .argumentConflict else .ok a

end StyleModule.Command
