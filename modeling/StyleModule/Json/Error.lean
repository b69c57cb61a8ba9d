import StyleModule.Json.Writer
import StyleModule.Text.Position
import StyleModule.Text.Shown

/-!
# What can be wrong with a JSON text

Reading fails for a `Cause`. While a text is being read the place of a failure is kept as what is
left of the text there (`Failure`); `Failure.locate` turns that into a `Position` of the whole text.
The failures that are about a whole object or list, and not about one place in it, are `pending`
until the reader has tried to get past its closing bracket.
-/

namespace StyleModule.Json

/-- What was met where something else was expected. -/
inductive Found where
  | null
  | bool (value : Bool)
  | int (value : Int)
  | float (value : Float)
  | string (value : String)
  | list
  | object

/-- Why a text cannot be read. -/
inductive Cause where
  | endInList
  | endInObject
  | endInString
  | endInValue
  | expectedColon
  | expectedCommaOrBracket
  | expectedCommaOrBrace
  | expectedKeyword
  | expectedValue
  | numberOutOfRange
  | invalidNumber
  | invalidEscape
  | loneSurrogate
  | missingSurrogate
  | controlCharacter
  | nameNotString
  | trailingComma
  | trailingCharacters
  | tooDeep
  | wrongType (found : Found) (expected : String)
  | wrongInteger (value : Int) (expected : String)
  | wrongLength (length : Nat) (expected : String)
  | repeatedField (name : String)
  | missingField (name : String)
  | unknownField (name : String) (expected : String)

/-- A failure at a place in the text, which is given by what is left of the text. -/
inductive Failure where
  /-- The place is `ahead` bytes after the start of `rest`, or the end of the text before that. -/
  | placed (cause : Cause) (rest : List Char) (ahead : Nat)
  /-- The place is not known before the innermost open container is closed; reading stopped at
  `rest`. -/
  | pending (cause : Cause) (rest : List Char)

/-- A way to read a value from the front of a text: the value and what is left, or a failure. -/
abbrev Reader (α : Type) := List Char → Except Failure (α × List Char)

/-- A failure with its position in the text that was read. -/
structure Error where
  /-- Why the text cannot be read. -/
  cause : Cause
  /-- Where that was seen. -/
  position : Position

namespace Found

/-- The kind of a value that is not a container. -/
def ofScalar : Json → Found
  | .null => null
  | .bool b => bool b
  | .int n => int n
  | .float x => float x
  | .string s => string s
  | .array _ => list
  | .object _ => object

/-- The words for what was met. -/
def message : Found → String
  | null => "null"
  | bool b => "boolean `" ++ String.ofList (boolText b) ++ "`"
  | int n => "integer `" ++ String.ofList (intText n) ++ "`"
  | float x => "floating point `" ++ String.ofList (floatNotation.write x) ++ "`"
  | string s => "string " ++ Text.shown s
  | list => "sequence"
  | object => "map"

end Found

namespace Cause

/-- The words for a cause. -/
def message : Cause → String
  | endInList => "EOF while parsing a list"
  | endInObject => "EOF while parsing an object"
  | endInString => "EOF while parsing a string"
  | endInValue => "EOF while parsing a value"
  | expectedColon => "expected `:`"
  | expectedCommaOrBracket => "expected `,` or `]`"
  | expectedCommaOrBrace => "expected `,` or `\x7d`"
  | expectedKeyword => "expected ident"
  | expectedValue => "expected value"
  | numberOutOfRange => "number out of range"
  | invalidNumber => "invalid number"
  | invalidEscape => "invalid escape"
  | loneSurrogate => "lone leading surrogate in hex escape"
  | missingSurrogate => "unexpected end of hex escape"
  | controlCharacter => "control character (\\u0000-\\u001F) found while parsing a string"
  | nameNotString => "key must be a string"
  | trailingComma => "trailing comma"
  | trailingCharacters => "trailing characters"
  | tooDeep => "recursion limit exceeded"
  | wrongType found expected => "invalid type: " ++ found.message ++ ", expected " ++ expected
  | wrongInteger n expected =>
    "invalid value: " ++ (Found.int n).message ++ ", expected " ++ expected
  | wrongLength n expected =>
    "invalid length " ++ String.ofList (Nat.toDigits 10 n) ++ ", expected " ++ expected
  | repeatedField name => "duplicate field `" ++ name ++ "`"
  | missingField name => "missing field `" ++ name ++ "`"
  | unknownField name expected => "unknown field `" ++ name ++ "`, expected `" ++ expected ++ "`"

end Cause

namespace Failure

/-- Why reading failed. -/
def cause : Failure → Cause
  | placed cause _ _ => cause
  | pending cause _ => cause

/-- What was left of the text. -/
def rest : Failure → List Char
  | placed _ rest _ => rest
  | pending _ rest => rest

/-- How far the place is after the start of what was left. -/
def ahead : Failure → Nat
  | placed _ _ n => n
  | pending _ _ => 0

/-- The number of UTF-8 bytes of a list of characters. -/
def byteCount (cs : List Char) : Nat := cs.foldl (fun n c => n + c.utf8Size) 0

/-- The position of a failure in the whole text. -/
def locate (text : String) (f : Failure) : Error where
  cause := f.cause
  position := Position.ofOffset text (text.utf8ByteSize - byteCount f.rest + f.ahead)

end Failure

/-- The words for a cause, and its line and column. -/
def Error.message (e : Error) : String :=
  e.cause.message ++ " at line " ++ String.ofList (Nat.toDigits 10 e.position.line) ++ " column " ++
    String.ofList (Nat.toDigits 10 e.position.column)

end StyleModule.Json
