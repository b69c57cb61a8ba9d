/-!
# Platforms

A module is made for one platform, or for all if there is none; the empty name stands for none. The
platform is a part of the name of the file (`PlatformModule.fileName`), so not every name is fit.

A list of platforms is worked off in order. `Platform.steps` says what happens to each: a module is
emitted for it, it is skipped because it came before, or it is rejected, which ends the work.
-/

namespace StyleModule

/-- A module for one platform. -/
structure PlatformModule where
  /-- The platform, if the module is for one only. -/
  platform : Option String
  /-- The text of the module. -/
  content : String
deriving DecidableEq, Inhabited

/-- The name under which a bundler finds the module for a platform. -/
def PlatformModule.fileName (m : PlatformModule) : String :=
  match m.platform with
  | some platform => "styles." ++ platform ++ ".js"
  | none => "styles.js"

namespace Platform

/-- The platform that a name stands for: the empty name stands for none. -/
def named? (name : Option String) : Option String := name.filter (· != "")

/-- Whether a platform can be a part of a file name. -/
def isFit (platform : String) : Bool :=
  platform != "." && platform != ".." &&
    !platform.toList.any fun c => c == '/' || c == '\\' || c == '\x00'

/-- What happens to a platform. -/
inductive Step where
  /-- A module is made. -/
  | emit (platform : Option String)
  /-- Nothing is done, since it came before. -/
  | skip (platform : Option String)
  /-- It is refused, and the work ends. -/
  | reject (platform : String)
deriving DecidableEq

/-- What happens to platforms, given those that came before. -/
def stepsAfter (seen : List (Option String)) : List String → List Step
  | [] => []
  | name :: names =>
    let platform := named? (some name)
    if platform ∈ seen then .skip platform :: stepsAfter seen names
    else if platform.all isFit then .emit platform :: stepsAfter (platform :: seen) names
    else [.reject name]

/-- What happens to the platforms of a list: without any, there is one module for all. -/
def steps (names : List String) : List Step :=
  if names.isEmpty then [.emit none] else stepsAfter [] names

end Platform

end StyleModule
