import StyleModule.Command.FileTree

/-!
# Disks

A `Disk` is a tree of files with a current directory. Its operations take the text of a path, follow
it name by name, and fail as the operating system would: for names that are missing or too long,
and for files where directories are needed or the other way round.

Files are changed by `Disk.write` alone; `Disk.makeDirectories` adds directories only.
-/

namespace StyleModule.Command

/-- Why the system refuses an operation. -/
inductive Refusal where
  | notFound
  | exists
  | notDirectory
  | isDirectory
  | nameTooLong
  | notText
  | nulInPath
  | other (text : String)
deriving DecidableEq

/-- The words for a refusal. -/
def Refusal.message : Refusal → String
  | notFound => "No such file or directory (os error 2)"
  | .exists => "File exists (os error 17)"
  | notDirectory => "Not a directory (os error 20)"
  | isDirectory => "Is a directory (os error 21)"
  | nameTooLong => "File name too long (os error 36)"
  | notText => "stream did not contain valid UTF-8"
  | nulInPath => "file name contained an unexpected NUL byte"
  | other text => text

/-- A tree of files with a current directory. -/
structure Disk where
  /-- Where paths start that do not start at the root. -/
  current : Place
  /-- What is in the directory at the root. -/
  entries : List (String × Entry)

/-! ### Texts of paths -/

/-- The parts of a text between slashes. -/
def splitSlashes : List Char → List (List Char)
  | [] => [[]]
  | c :: cs =>
    if c = '/' then [] :: splitSlashes cs
    else match splitSlashes cs with
      | [] => [[c]]
      | part :: parts => (c :: part) :: parts

/-- The names in the text of a path, also the empty ones and the dots. -/
def pathNames (path : String) : List String := (splitSlashes path.toList).map String.ofList

/-- Whether a path starts at the root. -/
def startsAtRoot (path : String) : Bool := path.toList.head? = some '/'

/-- The greatest number of bytes of a name. -/
def maxNameBytes : Nat := 255

/-- The greatest number of bytes of the text of a path. -/
def maxPathBytes : Nat := 4095

/-- The path of a file in a directory. The empty path stands for the current directory. -/
def joinPath (directory file : String) : String :=
  if directory = "" ∨ directory.toList.getLast? = some '/' then directory ++ file
  else directory ++ "/" ++ file

/-- Refuse the texts that cannot be paths. -/
def checkPath (path : String) : Except Refusal Unit :=
  if '\x00' ∈ path.toList then .error .nulInPath
  else if maxPathBytes < path.utf8ByteSize then .error .nameTooLong
  else .ok ()

/-- The text that some bytes encode. -/
def decodeText (bytes : ByteArray) : Except Refusal String :=
  match String.fromUTF8? bytes with
  | some text => .ok text
  | none => .error .notText

namespace Disk

variable (d : Disk)

/-- The directory at the root. -/
def root : Entry := .directory d.entries

/-- The content of the file at a place, if a file is there. -/
def fileAt? (p : Place) : Option ByteArray := Entry.content? (Entry.at? (some d.root) p)

/-- All files, with their places. -/
def files : List (Place × ByteArray) := d.root.files []

/-- Put something at a place, in place of what was there. Nothing takes the place of the root. -/
def set (p : Place) (x : Entry) : Disk :=
  { d with entries := Entry.inside (some (x.put p (some d.root))) }

theorem root_set (x : Entry) (name : String) (names : Place) :
    (d.set (name :: names) x).root = x.put (name :: names) (some d.root) := rfl

theorem fileAt?_set {x : Entry} (hx : Entry.inside (some x) = []) {p : Place} (hp : p ≠ [])
    (way : ∀ r, r <+: p → r ≠ p → d.fileAt? r = none)
    (last : ∀ es, Entry.at? (some d.root) p ≠ some (.directory es)) (q : Place) :
    (d.set p x).fileAt? q = if q = p then Entry.content? (some x) else d.fileAt? q := by
  obtain ⟨name, names, rfl⟩ := List.exists_cons_of_ne_nil hp
  rw [fileAt?, root_set]
  exact Entry.content?_at?_put hx way last q

/-! ### Following names -/

/-- A way down from the root: the names followed and what is in the directories they lead to, the
last one first. -/
abbrev Way := List (String × List (String × Entry))

/-- The place that a way leads to. -/
def Way.place (w : Way) : Place := (w.map Prod.fst).reverse

/-- What is in the directory that a way leads to. -/
def inside : Way → List (String × Entry)
  | [] => d.entries
  | (_, es) :: _ => es

/-- The names to follow from the root to where a path starts. -/
def origin (path : String) : List String := if startsAtRoot path then [] else d.current

/-- Whether a name stands for a directory wherever it is used. -/
def isDotName (name : String) : Bool := name == "" || name == "." || name == ".."

/-- Where a name of dots leads to: two of them lead back, but never above the root. -/
def followDots (w : Way) (name : String) : Way := if name = ".." then w.tail else w

/-- What a name stands for in the directory that a way leads to. -/
def find? (w : Way) (name : String) : Except Refusal (Option Entry) :=
  if maxNameBytes < name.utf8ByteSize then .error .nameTooLong
  else .ok ((d.inside w).lookup name)

/-- Follow some names into directories. -/
def descend (w : Way) : List String → Except Refusal Way
  | [] => .ok w
  | name :: names =>
    if isDotName name then descend (followDots w name) names
    else do
      match ← d.find? w name with
      | some (.directory es) => descend ((name, es) :: w) names
      | some (.file _) => .error .notDirectory
      | none => .error .notFound

/-! ### Reading -/

/-- The content of the file that some names lead to. -/
def readNames (names : List String) : Except Refusal ByteArray := do
  let w ← d.descend [] names.dropLast
  let last := names.getLast?.getD ""
  if isDotName last then .error .isDirectory
  else match ← d.find? w last with
    | some (.file content) => .ok content
    | some (.directory _) => .error .isDirectory
    | none => .error .notFound

/-- The content of a file. -/
def read (path : String) : Except Refusal ByteArray := do
  checkPath path
  if path = "" then .error .notFound else d.readNames (d.origin path ++ pathNames path)

/-- The text of a file. -/
def readText (path : String) : Except Refusal String := do
  decodeText (← d.read path)

/-! ### Writing -/

/-- The place that some names lead to, if a file can be written there. -/
def placeToWrite (names : List String) : Except Refusal Place := do
  let w ← d.descend [] names.dropLast
  let last := names.getLast?.getD ""
  if isDotName last then .error .isDirectory
  else match ← d.find? w last with
    | some (.directory _) => .error .isDirectory
    | _ => .ok (w.place ++ [last])

/-- Write a file, in place of any that is there. -/
def write (path : String) (content : ByteArray) : Except Refusal Disk := do
  checkPath path
  if path = "" then .error .notFound
  else
    let p ← d.placeToWrite (d.origin path ++ pathNames path)
    return d.set p (.file content)

/-! ### Making directories -/

/-- The names without the empty ones at the end. -/
def trimNames (names : List String) : List String := (names.reverse.dropWhile (· == "")).reverse

/-- Make the directory that some names lead to, inside a directory that is there. -/
def makeDirectory (names : List String) : Except Refusal Disk := do
  let names := trimNames names
  let w ← d.descend [] names.dropLast
  let last := names.getLast?.getD ""
  if isDotName last then .error .exists
  else match ← d.find? w last with
    | some _ => .error .exists
    | none => .ok (d.set (w.place ++ [last]) (.directory []))

/-- Whether some names lead to a directory. -/
def isDirectory (names : List String) : Bool := (d.descend [] names).isOk

/-- The names that matter: without empty ones, and without single dots but for one at the start. -/
def properNames : List String → List String
  | [] => []
  | name :: names => name :: names.filter fun n => n != "" && n != "."

/-- Make the first of some directories; each of them is inside the one after it, which is made first
if it is missing. -/
def makeNested : Disk → List (List String) → Disk × Except Refusal Unit
  | d, [] => (d, .ok ())
  | d, names :: outer =>
    match d.makeDirectory names with
    | .ok d => (d, .ok ())
    | .error .notFound =>
      match makeNested d outer with
      | (d, .error e) => (d, .error e)
      | (d, .ok ()) =>
        match d.makeDirectory names with
        | .ok d => (d, .ok ())
        | .error e => (d, if d.isDirectory names then .ok () else .error e)
    | .error e => (d, if d.isDirectory names then .ok () else .error e)

/-- The names of the directories around the one that some names lead to, from the inside out. -/
def enclosing (names : List String) : List (List String) :=
  let names := properNames (trimNames names)
  ((List.range names.length).reverse.map fun n => names.take n).filter fun ns =>
    ns.any (· != "")

/-- Make a directory and those around it, unless they are there. -/
def makeDirectories (path : String) : Disk × Except Refusal Unit :=
  match checkPath path with
  | .error e => (d, .error e)
  | .ok () =>
    if path = "" then (d, .ok ())
    else
      let names := pathNames path
      makeNested d ((names :: enclosing names).map (d.origin path ++ ·))

end Disk

end StyleModule.Command
