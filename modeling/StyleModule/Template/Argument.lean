import StyleModule.Template.Literal

/-!
# Reading arguments

After the name of a helper come its arguments, with blanks between them (`arguments`). An argument
is a literal, a path, or a helper with its own arguments in round brackets; one with a name and an
equals sign before it is handed over by that name. A quoted argument ends at its quote, so it may
contain braces and brackets.
-/

namespace StyleModule.Template

open Json (dropBlanks)

/-- Whether a text starts with a word that is not an argument. After such a word there is the end of
a name; only over blanks another name may follow. -/
def startsReserved : List Char → Bool
  | 'a' :: 's' :: r => !startsName (dropBlanks r)
  | 'e' :: 'l' :: 's' :: 'e' :: r => !startsName (dropBlanks r)
  | _ => false

/-- A literal or a path. -/
def plainArgument : Scanner Argument := fun s =>
  match literalEnd (s.length + 1) s with
  | some r => do return (.literal (← literalValue? (taken s r)), r)
  | none => reference s

/-- An argument with a name and an equals sign before it. -/
def namedArgument (argument : Scanner Argument) : Scanner (String × Argument) := fun s => do
  let (name, r) ← identifier s
  match dropBlanks r with
  | '=' :: r =>
    let (a, r) ← argument (dropBlanks r)
    return ((name, a), r)
  | _ => none

/-- As many arguments as there are, but fewer than the bound. Of two with the same name the later
one is kept. -/
def arguments (argument : Scanner Argument) :
    Nat → List Char → (List Argument × List (String × Argument)) × List Char
  | 0, s => (([], []), s)
  | bound + 1, s =>
    match namedArgument argument (dropBlanks s) with
    | some ((name, a), r) =>
      let ((as, named), r) := arguments argument bound r
      ((as, if named.any (·.1 == name) then named else (name, a) :: named), r)
    | none =>
      match argument (dropBlanks s) with
      | some (a, r) =>
        let ((as, named), r) := arguments argument bound r
        ((a :: as, named), r)
      | none => (([], []), s)

/-- A helper with any number of arguments. -/
def callWith (argument : Scanner Argument) : Scanner Call := fun s => do
  let (helper, r) ← identifier s
  let ((as, named), r) := arguments argument (r.length + 1) r
  return (⟨helper, as, named, []⟩, r)

/-- Whether nothing is handed to a helper. -/
def Call.isBare (call : Call) : Bool := call.arguments.isEmpty && call.named.isEmpty

/-- A helper that is called without arguments, by anything that has the form of a path. -/
def bareCall : Scanner Argument := fun s => do
  let (_, r) ← path s
  return (.call (String.ofList (taken s r)) [] [], r)

/-- A helper with its arguments, up to and including a closing bracket. -/
def bracketed (argument : Scanner Argument) : Scanner Argument := fun s => do
  let s := dropBlanks s
  let (a, r) ← match callWith argument s with
    | some (call, r) =>
      if call.isBare then bareCall s else some (.call call.helper call.arguments call.named, r)
    | none => bareCall s
  match dropBlanks r with
  | ')' :: r => some (a, r)
  | _ => none

/-- One argument, in which fewer brackets than the bound are open at one place. -/
def argument : Nat → Scanner Argument
  | 0, _ => none
  | bound + 1, s =>
    if startsReserved s then none
    else match s with
      | '(' :: r => bracketed (argument bound) r
      | _ => plainArgument s

/-! ### Helpers and values -/

/-- A helper with any number of arguments, after blanks. -/
def helperCall : Scanner Call := fun s => callWith (argument (s.length + 1)) (dropBlanks s)

/-- One or two names between bars, after the word `as`. -/
def blockNames : Scanner (List String) := fun s =>
  match dropBlanks s with
  | 'a' :: 's' :: r => do
    let '|' :: r := dropBlanks r | none
    let (name, r) ← identifier (dropBlanks r)
    let (more, r) := match identifier (dropBlanks r) with
      | some (name, r) => ([name], r)
      | none => ([], r)
    let '|' :: r := dropBlanks r | none
    return (name :: more, r)
  | _ => none

/-- A helper with any number of arguments and the names that it gives to values. -/
def blockCall : Scanner Call := fun s => do
  let (call, r) ← helperCall s
  match blockNames r with
  | some (names, r) => return ({ call with names }, r)
  | none => return (call, r)

/-- What names a value, after blanks: a path, or a helper with its arguments in brackets. -/
def subject : Scanner Argument := fun s =>
  match dropBlanks s with
  | '(' :: r => argument (r.length + 2) ('(' :: r)
  | s => reference s

end StyleModule.Template
