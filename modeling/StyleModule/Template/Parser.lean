import StyleModule.Template.Piece

/-!
# Reading templates

A text is first taken apart into text and tags (`layOut`), and then the tags that start and end
blocks are paired (`build`). A template cannot be read if a tag is not closed or makes no sense, or
if blocks are not closed in the order in which they were opened.

The other text of a block may be under a condition of its own. It is then a block in turn, with all
further texts in it, and ends where the first one ends.
-/

namespace StyleModule.Template

/-! ### Blocks -/

/-- One text of a block, with the helper that decides on it. -/
structure Branch where
  /-- The helper and what is handed to it. -/
  call : Call
  /-- The text. -/
  body : List Node

/-- A block whose end has not been met. -/
structure OpenBlock where
  /-- The helper that the block belongs to. -/
  name : String
  /-- The nodes before the block, from the last to the first. -/
  before : List Node
  /-- The texts that are complete, from the last to the first. -/
  branches : List Branch
  /-- The helper that decides on the text that is being read, none if that is the text for any other
  case. -/
  current : Option Call

namespace OpenBlock

variable (b : OpenBlock)

/-- Complete the text that is being read and go on to another one, unless it was the text for any
other case. -/
def next? (body : List Node) (next : Option Call) : Option OpenBlock :=
  b.current.map fun call => { b with branches := ⟨call, body⟩ :: b.branches, current := next }

/-- The nodes for texts that come one after the other, given the other text of the last one. -/
def nest (otherwise : List Node) : List Branch → List Node
  | [] => otherwise
  | x :: xs => nest [.block x.call x.body otherwise] xs

/-- The nodes for the block, once its last text is complete. -/
def nodes (body : List Node) : List Node :=
  match b.current with
  | some call => nest [] (⟨call, body⟩ :: b.branches)
  | none => nest body b.branches

end OpenBlock

/-- What is to be put in for a tag that is neither a start nor an end. -/
def Tag.nodes : Tag → List Node
  | .value a => [.value a]
  | .call h => [.call h]
  | .foreign name => [.foreign name]
  | _ => []

/-- Pair the starts and ends of blocks. The nodes read so far at the innermost level come from the
last to the first. -/
def build : List OpenBlock → List Node → List Piece → Option Template
  | [], nodes, [] => some nodes.reverse
  | _ :: _, _, [] => none
  | open_, nodes, .text cs :: ps => build open_ (.text cs :: nodes) ps
  | open_, nodes, .tag (.start call) _ _ :: ps =>
    build (⟨call.helper, nodes, [], some call⟩ :: open_) [] ps
  | b :: open_, nodes, .tag .otherwise _ _ :: ps =>
    match b.next? nodes.reverse none with
    | some b => build (b :: open_) [] ps
    | none => none
  | b :: open_, nodes, .tag (.otherwiseIf call) _ _ :: ps =>
    match b.next? nodes.reverse (some call) with
    | some b => build (b :: open_) [] ps
    | none => none
  | b :: open_, nodes, .tag (.finish helper) _ _ :: ps =>
    if helper = b.name then build open_ (b.nodes nodes.reverse ++ b.before) ps else none
  | [], _, .tag .otherwise _ _ :: _ => none
  | [], _, .tag (.otherwiseIf _) _ _ :: _ => none
  | [], _, .tag (.finish _) _ _ :: _ => none
  | open_, nodes, .tag t _ _ :: ps => build open_ (t.nodes ++ nodes) ps

/-- Read a template. -/
def parse? (text : String) : Option Template := do
  build [] [] (← layOut text.toList)

end StyleModule.Template
