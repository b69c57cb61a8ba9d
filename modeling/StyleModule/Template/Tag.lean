import StyleModule.Template.Argument

/-!
# Reading tags

`tag` reads a tag after its opening braces, up to and including its closing braces. Inside a tag
blanks may stand between any two parts.

The word `else` starts a tag of its own, also where further characters of a name follow it directly:
these then name the helper of another condition. Where such a tag makes no sense, the word is part
of a name.

A tilde next to the braces takes away the white space on that side of the tag.

Tags for blocks that are made of templates or decorators, and for raw blocks, cannot be read.
-/

namespace StyleModule.Template

open Json (dropBlanks)

/-! ### Ends of tags -/

/-- Past a tilde, with blanks around it, and whether it is there. -/
def dropTilde (s : List Char) : Bool × List Char :=
  match dropBlanks s with
  | '~' :: r => (true, dropBlanks r)
  | s => (false, s)

/-- Two closing braces, with blanks and a tilde before them. -/
def close : Scanner Bool := fun s =>
  match dropTilde s with
  | (tilde, '\x7d' :: '\x7d' :: r) => some (tilde, r)
  | _ => none

/-- One and then two closing braces, with blanks and a tilde before each. -/
def closeBraced : Scanner Bool := fun s =>
  match dropTilde s with
  | (tilde, '\x7d' :: r) => do
    let (tilde', r) ← close r
    return (tilde || tilde', r)
  | _ => none

/-- What follows the first place where a text has come to an end. -/
def pastFirst (stop : List Char) : List Char → Option (List Char)
  | [] => none
  | c :: r =>
    if stop.isPrefixOf (c :: r) then some ((c :: r).drop stop.length) else pastFirst stop r

/-- What follows a comment: it goes to the next closing braces, or, if it starts with two dashes and
there are two before some closing braces, to these. -/
def commentEnd (s : List Char) : Option (List Char) :=
  let dashed := if ['-', '-'].isPrefixOf s then
      pastFirst ['-', '-', '\x7d', '\x7d'] (s.drop 2) else none
  dashed.or (pastFirst ['\x7d', '\x7d'] s)

/-! ### Tags without their ends -/

/-- A value. -/
def value : Scanner Tag := fun s => do
  let (a, r) ← subject s
  return (.value a, r)

/-- A helper with its arguments, or a value. -/
def expression : Scanner Tag := fun s =>
  match helperCall s with
  | some (call, r) => if call.isBare then value s else some (.call call, r)
  | none => value s

/-- The start of a block. -/
def start : Scanner Tag := fun s => do
  let (call, r) ← blockCall s
  return (.start call, r)

/-- The end of a block. -/
def finish : Scanner Tag := fun s => do
  let (helper, r) ← identifier (dropBlanks s)
  return (.finish helper, r)

/-- Past the word for any other case. -/
def dropElse : List Char → Option (List Char)
  | 'e' :: 'l' :: 's' :: 'e' :: r => some r
  | '^' :: r => some r
  | _ => none

/-- The start of the text for any other case. -/
def otherwise : Scanner Tag := fun s => do
  return (.otherwise, ← dropElse s)

/-- The start of the text for another case under a condition. -/
def otherwiseIf : Scanner Tag := fun s => do
  let (call, r) ← blockCall (← dropElse s)
  return (.otherwiseIf call, r)

/-- A template or a decorator: a name with slashes and dots, and arguments. -/
def foreign : Scanner Tag := fun s =>
  let s := dropBlanks s
  let isMore (c : Char) := isNameChar c || isSeparator c
  let name := s.takeWhile isMore
  let bound := s.length + 1
  if name.isEmpty then none
  else some (.foreign (String.ofList name),
    (arguments (argument bound) bound (s.dropWhile isMore)).2)

/-! ### Tags -/

/-- What a tag takes away on a side where it has a tilde or none. -/
def margin (tilde : Bool) : Margin := if tilde then .whiteSpace else .none

/-- A tag and the closing braces after it. -/
def closed (scan : Scanner Tag) (before : Bool) : Scanner Piece := fun s => do
  let (t, r) ← scan s
  let (after, r) ← close r
  return (.tag t (margin before) (margin after), r)

/-- A tag, read after its two opening braces. -/
def tag : Scanner Piece
  | '!' :: r => do return (.tag .comment .none .none, ← commentEnd r)
  | s =>
    let (before, s) := dropTilde s
    match s with
    | [] => none
    | c :: r =>
      if c = '\x7b' then do
        let (inside, r) := dropTilde r
        let (t, r) ← expression r
        let (after, r) ← closeBraced r
        return (.tag t (margin (before || inside)) (margin after), r)
      else if c = '&' then closed value before r
      else if c = '#' then closed start before r
      else if c = '/' then closed finish before r
      else if c = '>' ∨ c = '*' then closed foreign before r
      else ((closed otherwise before s).or (closed otherwiseIf before s)).or
        (closed expression before s)

end StyleModule.Template
