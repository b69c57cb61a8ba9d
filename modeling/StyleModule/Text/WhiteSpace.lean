/-!
# White space

The characters that a text can be trimmed of, from all of Unicode: control characters that move
the place of writing, spaces of all widths, and the separators of lines and paragraphs. Within a
line only spaces and tabs are blank, and it ends at a line feed or a carriage return.
-/

namespace StyleModule.Text

/-- Whether a character is white space. -/
def isWhiteSpace (c : Char) : Bool :=
  let n := c.toNat
  (0x9 ≤ n && n ≤ 0xD) || (0x2000 ≤ n && n ≤ 0x200A) ||
    [0x20, 0x85, 0xA0, 0x1680, 0x2028, 0x2029, 0x202F, 0x205F, 0x3000].contains n

/-- A text without the white space that it starts with. -/
def trimStart (s : List Char) : List Char := s.dropWhile isWhiteSpace

/-- A text without the white space that it ends with. -/
def trimEnd (s : List Char) : List Char := (trimStart s.reverse).reverse

/-! ### Lines -/

/-- Whether a character is blank within a line. -/
def isIndent (c : Char) : Bool := c == ' ' || c == '\t'

/-- Whether a character stands at the end of a line. -/
def isLineBreak (c : Char) : Bool := c == '\n' || c == '\r'

/-- Whether the first line of a text is blank and ends. -/
def startsBlankLine (s : List Char) : Bool :=
  ((s.dropWhile isIndent).head?.map isLineBreak).getD false

/-- Whether the last line of a text is blank, given whether there is nothing before the text on the
line that the text starts in. -/
def endsBlankLine (startsLine : Bool) (s : List Char) : Bool :=
  ((s.reverse.dropWhile isIndent).head?.map isLineBreak).getD startsLine

/-- Past the blanks at the start of a text and a line feed after them, which may have a carriage
return before it. A carriage return alone is left. -/
def dropBlankLine (s : List Char) : List Char :=
  match s.dropWhile isIndent with
  | '\r' :: '\n' :: r => r
  | '\n' :: r => r
  | s => s

/-- A text without the blanks that its last line ends with. -/
def dropIndent (s : List Char) : List Char := (s.reverse.dropWhile isIndent).reverse

end StyleModule.Text
