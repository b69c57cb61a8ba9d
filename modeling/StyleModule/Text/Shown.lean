import StyleModule.Text.Unprintable

/-!
# Texts shown in messages

A message that names a text shows it between double quotes, with an escape for each character that
would not be seen: by name for the common ones, by number in braces for the others.
-/

namespace StyleModule.Text

/-- What stands for a character of a text that a message shows. -/
def shownChar (c : Char) : List Char :=
  if c = '\x00' then ['\\', '0']
  else if c = '\t' then ['\\', 't']
  else if c = '\r' then ['\\', 'r']
  else if c = '\n' then ['\\', 'n']
  else if c = '\\' then ['\\', '\\']
  else if c = '"' then ['\\', '"']
  else if isUnprintable c then '\\' :: 'u' :: '{' :: (Nat.toDigits 16 c.toNat ++ ['}'])
  else [c]

/-- A text as a message shows it. -/
def shown (s : String) : String :=
  String.ofList ('"' :: (s.toList.flatMap shownChar ++ ['"']))

end StyleModule.Text
