import StyleModule.Template.Basic

/-!
# What paths lead to

A template is rendered with some data. A block may be about another value, and have its text put in
in several turns; each turn is a `Scope`. A `Context` is where rendering has got to: the data, and
the scopes of the blocks around. `Context.follow` gives the value that a path leads to. Where a path
leads nowhere, the value is null.
-/

namespace StyleModule.Template

/-- Why a template cannot be rendered. -/
inductive RenderError where
  /-- There is no template of the name. -/
  | unknownTemplate (name : String)
  /-- The text is not a template. -/
  | unreadable
  /-- An item of a list is asked for by something that is not a number. -/
  | invalidIndex (part : String)
  /-- There is no helper of the name. -/
  | unknownHelper (helper : String)
  /-- The helper needs a further argument. -/
  | missingArgument (helper : String)
  /-- The helper cannot do with an argument. -/
  | invalidArgument (helper : String)
  /-- The tag is neither for a value nor for a helper. -/
  | foreign (name : String)
deriving DecidableEq

/-! ### Parts of values -/

/-- The number of an item: decimal digits of a number of 64 bits, after a plus sign or not. -/
def index? (part : String) : Option Nat :=
  let digits : List Char := match part.toList with
    | '+' :: cs => cs
    | cs => cs
  let n := digits.foldl (fun n c => 10 * n + (c.toNat - '0'.toNat)) 0
  if digits ≠ [] ∧ digits.all Char.isDigit ∧ n < 0x10000000000000000 then some n else none

/-- The value that the parts of a path lead to. -/
def resolve : List String → Json → Except RenderError Json
  | [], v => .ok v
  | part :: parts, .array items =>
    match index? part with
    | some i => resolve parts (items[i]?.getD .null)
    | none => .error (.invalidIndex part)
  | part :: parts, .object members => resolve parts ((Json.member? members part).getD .null)
  | _ :: _, _ => .ok .null

/-! ### Scopes -/

/-- One turn of a block. -/
structure Scope where
  /-- What the block is about. -/
  value : Json
  /-- What the block says of the turn, by name. -/
  turn : List (String × Json) := []
  /-- What the text of the block calls values. -/
  names : List (String × Json) := []

/-- Where rendering has got to. -/
structure Context where
  /-- The data that the template is rendered with. -/
  data : Json
  /-- The scopes of the blocks around, from the inner to the outer ones. -/
  inner : List Scope := []

namespace Context

variable (c : Context)

/-- The scopes of the blocks around and that of the whole template. -/
def scopes : List Scope := c.inner ++ [{ value := c.data }]

/-- Go into a block. -/
def enter (s : Scope) : Context := { c with inner := s :: c.inner }

/-- The value that the block so many levels further out is about. With too many levels, this is the
value that the innermost block is about. -/
def value (levels : Nat) : Json :=
  match c.scopes[levels]? with
  | some s => s.value
  | none => (c.inner.head?.map Scope.value).getD c.data

/-- The value that a path leads to. A name that a block has given to a value comes before a member
of that name. -/
def follow : Path → Except RenderError Json
  | .here levels [] => .ok (c.value levels)
  | .here levels (name :: parts) =>
    match c.scopes.findSome? fun s => s.names.lookup name with
    | some v => resolve parts v
    | none => resolve (name :: parts) (c.value levels)
  | .top parts => resolve parts c.data
  | .turn levels name =>
    .ok ((c.scopes[levels]?.bind fun s => s.turn.lookup name).getD .null)

end Context

end StyleModule.Template
