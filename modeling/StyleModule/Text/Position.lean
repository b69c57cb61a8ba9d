/-!
# Positions in a text

A place in a text is a number of UTF-8 bytes from its start. A reader of the text sees it as a
`Position`: lines are counted from one and end at line feeds, columns are the bytes since the last
line feed.
-/

namespace StyleModule

/-- A place in a text, as lines and bytes within the line. -/
structure Position where
  /-- One more than the number of line feeds before the place. -/
  line : Nat
  /-- The bytes between the last line feed before the place and the place. -/
  column : Nat
deriving DecidableEq, Repr

namespace Position

/-- The code of the line feed, which is one byte in UTF-8 and part of no other character. -/
def lineFeed : UInt8 := 10

/-- The position reached after the given bytes. -/
def after (bytes : List UInt8) : Position where
  line := bytes.count lineFeed + 1
  column := (bytes.reverse.takeWhile (· != lineFeed)).length

/-- The position of the place `offset` bytes into a text, or of its end if it is shorter. -/
def ofOffset (text : String) (offset : Nat) : Position :=
  after (text.toUTF8.toList.take offset)

end Position

end StyleModule
