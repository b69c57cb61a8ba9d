import StyleModule.Json.Numeral
import StyleModule.Json.Quotation

/-!
# Values that are not containers

`scalar` reads a keyword, a number or a string in full, and `passScalar` passes over one.
-/

namespace StyleModule.Json

/-- The characters between the parts of a text. -/
def isBlank (c : Char) : Bool := c == ' ' || c == '\n' || c == '\t' || c == '\r'

/-- The text from its first character that is not blank. -/
def dropBlanks (s : List Char) : List Char := s.dropWhile isBlank

/-- What follows a word. -/
def word : List Char → List Char → Except Failure (List Char)
  | [], s => .ok s
  | _ :: _, [] => .error (.placed .endInValue [] 0)
  | c :: cs, d :: s => if c = d then word cs s else .error (.placed .expectedKeyword (d :: s) 1)

/-- A value at the front of a text, if it is not a container. -/
def scalar : Reader Json
  | [] => .error (.placed .endInValue [] 1)
  | c :: r =>
    if c = 'n' then do return (null, ← word ['u', 'l', 'l'] r)
    else if c = 't' then do return (bool true, ← word ['r', 'u', 'e'] r)
    else if c = 'f' then do return (bool false, ← word ['a', 'l', 's', 'e'] r)
    else if c = '"' then do
      let (s, r) ← quotation r
      return (string s, r)
    else if c = '-' ∨ c.isDigit then number (c :: r)
    else .error (.placed .expectedValue (c :: r) 1)

/-- What follows a value that is not a container. -/
def passScalar : Reader Unit
  | [] => .error (.placed .endInValue [] 1)
  | c :: r =>
    if c = 'n' then do return ((), ← word ['u', 'l', 'l'] r)
    else if c = 't' then do return ((), ← word ['r', 'u', 'e'] r)
    else if c = 'f' then do return ((), ← word ['a', 'l', 's', 'e'] r)
    else if c = '"' then passQuotation r
    else if c = '-' ∨ c.isDigit then do
      let (_, r) ← Numeral.scan .invalidNumber (c :: r)
      return ((), r)
    else .error (.placed .expectedValue (c :: r) 1)

end StyleModule.Json
