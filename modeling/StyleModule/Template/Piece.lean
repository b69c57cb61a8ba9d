import StyleModule.Template.Tag
import StyleModule.Text.WhiteSpace

/-!
# Text and tags

`pieces` takes a text apart into text and tags. A backslash before two or four opening braces makes
them stand for themselves; of several backslashes before a tag one is dropped.

Then white space next to tags is taken away (`trim`): where a tilde asks for it, and around a tag
for a block or a comment that has a line for itself (`settle`), so that such a line leaves no trace.
Only a line that is followed by another one counts.
-/

namespace StyleModule.Template

/-! ### Taking apart -/

/-- Put a character in front of the text that follows. -/
def consChar (c : Char) : List Piece → List Piece
  | .text cs :: ps => .text (c :: cs) :: ps
  | ps => .text [c] :: ps

/-- Whether a text starts with a tag. -/
def startsTag : List Char → Bool
  | '\x7b' :: '\x7b' :: _ => true
  | _ => false

/-- Whether a text starts with backslashes and then a tag. -/
def startsEscape (s : List Char) : Bool :=
  s.head? = some '\\' && startsTag (s.dropWhile (· == '\\'))

/-- Text and tags in turn, from a text with fewer characters than the bound. -/
def pieces : Nat → List Char → Option (List Piece)
  | _, [] => some []
  | 0, _ => none
  | bound + 1, c :: r =>
    if startsTag (c :: r) then do
      let (t, s) ← tag (r.drop 1)
      return t :: (← pieces bound s)
    else if startsEscape (c :: r) then
      let slashes := r.takeWhile (· == '\\')
      let s := r.dropWhile (· == '\\')
      if slashes.isEmpty then do
        let braces := s.take (if startsTag (s.drop 2) then 4 else 2)
        return braces.foldr consChar (← pieces bound (s.drop braces.length))
      else do
        return slashes.foldr consChar (← pieces bound s)
    else do
      return consChar c (← pieces bound r)

/-! ### Margins -/

/-- Whether a tag puts in nothing by itself, so that it may have a line for itself. -/
def Tag.isSilent : Tag → Bool
  | .value _ | .call _ | .foreign _ => false
  | _ => true

/-- What a tag takes away on a side if it has a line for itself. -/
def Margin.orLine : Margin → Margin
  | none => line
  | m => m

/-- Whether the line that some pieces start in goes on with blanks only, and comes to an end. -/
def startsBlank : List Piece → Bool
  | .text cs :: _ => Text.startsBlankLine cs
  | _ => false

/-- Have tags that are alone on a line take away all of it, given whether there is nothing before
the pieces on the line that they start in. -/
def settle : Bool → List Piece → List Piece
  | _, [] => []
  | startsLine, .text cs :: ps => .text cs :: settle (Text.endsBlankLine startsLine cs) ps
  | startsLine, .tag t before after :: ps =>
    if startsLine && t.isSilent && startsBlank ps then
      .tag t before.orLine after.orLine :: settle false ps
    else .tag t before after :: settle false ps

/-- A text after a tag, without what the tag takes away. -/
def Margin.dropAfter : Margin → List Char → List Char
  | none, cs => cs
  | line, cs => Text.dropBlankLine cs
  | whiteSpace, cs => Text.trimStart cs

/-- A text before a tag, without what the tag takes away. -/
def Margin.dropBefore : Margin → List Char → List Char
  | none, cs => cs
  | line, cs => Text.dropIndent cs
  | whiteSpace, cs => Text.trimEnd cs

/-- What the first of some pieces takes away before it. -/
def marginBefore : List Piece → Margin
  | .tag _ before _ :: _ => before
  | _ => .none

/-- Take away of each text what the tags around it take away, given what the tag before the pieces
does. -/
def trim : Margin → List Piece → List Piece
  | _, [] => []
  | _, .tag t before after :: ps => .tag t before after :: trim after ps
  | m, .text cs :: ps => .text ((marginBefore ps).dropBefore (m.dropAfter cs)) :: trim .none ps

/-- The text and tags of a template. -/
def layOut (text : List Char) : Option (List Piece) := do
  return trim .none (settle true (← pieces (text.length + 1) text))

end StyleModule.Template
