import StyleModule.Json.Reader
import StyleModule.Template.Path

/-!
# Literals in tags

A literal is a value that stands in a tag itself. Its extent is found by its form alone
(`literalEnd`): a text in quotes, a number, a keyword, or a list or an object of literals. What has
the form of a literal must then be a JSON text as well (`literalValue?`); here a text in single
quotes stands for the same text in double quotes.
-/

namespace StyleModule.Template

open Json (dropBlanks)

/-! ### Extent -/

/-- The characters, other than quotes, that may follow a backslash alone. -/
def escapeLetters : List Char := ['\\', '/', 'b', 'f', 'n', 'r', 't']

/-- What follows the closing quote. -/
def quotedEnd (quote : Char) : List Char → Option (List Char)
  | [] => none
  | '\\' :: [] => none
  | '\\' :: d :: r =>
    let isFourHex := (r.take 4).length = 4 && (r.take 4).all fun c => (Json.hexDigit? c).isSome
    if d = quote ∨ d ∈ escapeLetters ∨ d = 'u' ∧ isFourHex then quotedEnd quote r else none
  | c :: r => if c = quote then some r else quotedEnd quote r

/-- Past a minus sign, if there is one. -/
def dropMinus : List Char → List Char
  | '-' :: r => r
  | s => s

/-- Past an exponent, if there is one. -/
def dropExponent : List Char → List Char
  | 'E' :: r =>
    let digits := dropMinus r
    if (digits.head?.map Char.isDigit).getD false then digits.dropWhile Char.isDigit else 'E' :: r
  | s => s

/-- What follows a number: digits, with a point among them or after them, and an exponent. No
character of a name may follow. -/
def numberEnd (s : List Char) : Option (List Char) :=
  let (whole, s) := Json.Numeral.spanDigits (dropMinus s)
  let s := match s with
    | '.' :: r => r.dropWhile Char.isDigit
    | s => s
  let s := dropExponent s
  if whole.isEmpty || startsName s then none else some s

/-- The words that stand for values. -/
def keywords : List (List Char) := [Json.nullText, Json.boolText true, Json.boolText false]

/-- What follows a word that stands for a value. -/
def keywordEnd (s : List Char) : Option (List Char) :=
  if s.takeWhile isNameChar ∈ keywords then some (s.dropWhile isNameChar) else none

/-- What follows a closing bracket, after further items with a comma before each, fewer than the
bound. -/
def itemsEnd (item : List Char → Option (List Char)) (close : Char) :
    Nat → List Char → Option (List Char)
  | 0, _ => none
  | bound + 1, s =>
    match dropBlanks s with
    | [] => none
    | c :: r =>
      if c = close then some r
      else if c = ',' then do itemsEnd item close bound (← item (dropBlanks r))
      else none

/-- What follows a closing bracket, read after the opening one. The first item may be missing. -/
def bracketEnd (item : List Char → Option (List Char)) (close : Char) (s : List Char) :
    Option (List Char) :=
  itemsEnd item close (s.length + 1) ((item (dropBlanks s)).getD s)

/-- What follows a quoted name, a colon and a value. -/
def memberEnd (value : List Char → Option (List Char)) : List Char → Option (List Char)
  | [] => none
  | c :: r =>
    if c = '"' ∨ c = '\'' then do
      match dropBlanks (← quotedEnd c r) with
      | ':' :: r => value (dropBlanks r)
      | _ => none
    else none

/-- What follows a literal, in which fewer brackets than the bound are open at one place. -/
def literalEnd : Nat → List Char → Option (List Char)
  | _, [] => none
  | 0, _ => none
  | bound + 1, c :: r =>
    if c = '"' ∨ c = '\'' then quotedEnd c r
    else if c = '[' then bracketEnd (literalEnd bound) ']' r
    else if c = '\x7b' then bracketEnd (memberEnd (literalEnd bound)) '\x7d' r
    else if c = '-' ∨ c.isDigit then numberEnd (c :: r)
    else keywordEnd (c :: r)

/-! ### Value -/

/-- A text between single quotes, as it is written between double quotes. -/
def requote : List Char → List Char
  | '\\' :: '\'' :: r => '\'' :: requote r
  | '\\' :: c :: r => '\\' :: c :: requote r
  | '"' :: r => '\\' :: '"' :: requote r
  | c :: r => c :: requote r
  | [] => []

/-- The JSON text for a literal. -/
def literalText : List Char → List Char
  | '\'' :: r => '"' :: (requote r.dropLast ++ ['"'])
  | s => s

/-- The value of a literal, if it is a JSON text. -/
def literalValue? (s : List Char) : Option Json :=
  (Json.Reader.run (Json.value Json.maxOpen) (String.ofList (literalText s))).toOption

end StyleModule.Template
