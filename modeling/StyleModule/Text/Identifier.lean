/-!
# Identifiers

The words that may stand bare as a property name and after a member dot. Only ASCII letters are
taken, so an identifier means the same in every edition of the language it is written in.
-/

namespace StyleModule.Text

/-- The characters an identifier may start with. -/
def isIdentifierStart (c : Char) : Bool := c.isAlpha || c == '_' || c == '$'

/-- The characters an identifier may go on with. -/
def isIdentifierPart (c : Char) : Bool := c.isAlphanum || c == '_' || c == '$'

/-- Whether a text is an identifier. -/
def isIdentifier (s : String) : Bool :=
  match s.toList with
  | [] => false
  | c :: cs => isIdentifierStart c && cs.all isIdentifierPart

end StyleModule.Text
