/-!
# Quoted strings

Two ways to write a string so that its end can be seen: `Quoted.double`, which is a JSON string,
and `Quoted.single`, the form of a string literal in a script. Both put one escape for each
character that cannot stand for itself, and leave every other character as it is, so that what is
written for a text is the concatenation of what is written for its characters.
-/

namespace StyleModule.Text.Quoted

/-- Four lower-case hexadecimal digits of a number, from the highest. -/
def fourHexDigits (n : Nat) : List Char :=
  [Nat.digitChar (n / 4096 % 16), Nat.digitChar (n / 256 % 16), Nat.digitChar (n / 16 % 16),
    Nat.digitChar (n % 16)]

/-- A character as its number, in the form both kinds of literal share. -/
def numberEscape (c : Char) : List Char := '\\' :: 'u' :: fourHexDigits c.toNat

/-- What stands for a character between double quotes. -/
def doubleEscape (c : Char) : List Char :=
  if c = '"' then ['\\', '"']
  else if c = '\\' then ['\\', '\\']
  else if c = '\x08' then ['\\', 'b']
  else if c = '\x0c' then ['\\', 'f']
  else if c = '\n' then ['\\', 'n']
  else if c = '\r' then ['\\', 'r']
  else if c = '\t' then ['\\', 't']
  else if c.toNat < 0x20 then numberEscape c
  else [c]

/-- What stands for a character between single quotes. -/
def singleEscape (c : Char) : List Char :=
  if c = '\\' then ['\\', '\\']
  else if c = '\'' then ['\\', '\'']
  else if c = '\n' then ['\\', 'n']
  else if c = '\r' then ['\\', 'r']
  else if c.toNat < 0x20 ∨ 0x7f ≤ c.toNat ∧ c.toNat < 0xa0 then numberEscape c
  else [c]

/-- A text between double quotes. -/
def double (s : String) : List Char :=
  '"' :: (s.toList.flatMap doubleEscape ++ ['"'])

/-- A text between single quotes. -/
def single (s : String) : List Char :=
  '\'' :: (s.toList.flatMap singleEscape ++ ['\''])

end StyleModule.Text.Quoted
