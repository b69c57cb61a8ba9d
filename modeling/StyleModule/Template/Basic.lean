import StyleModule.Json.Basic

/-!
# Templates

A template is text with tags in double braces. A tag stands for a value or for the result of a
helper, or it starts or ends a block. The helper of a block decides which of its two texts is put
in, and how often.

This is the language of values, helpers and blocks. Left out are templates that are put in by their
names, also those with a text of their own, decorators, and blocks whose text is raw. Of a tag for
one of these no more is kept than its name (`Tag.foreign`), if it can be read at all.
-/

namespace StyleModule.Template

/-- The way to a value. Its parts are the names of members and the numbers of items to follow. -/
inductive Path where
  /-- From the value that the block so many levels further out is about. -/
  | here (levels : Nat) (parts : List String)
  /-- From the data that the template is rendered with. -/
  | top (parts : List String)
  /-- To what the block so many levels further out says of the turn that it is in. -/
  | turn (levels : Nat) (name : String)

/-- What is handed to a helper. -/
inductive Argument where
  /-- The value at the end of a path, with the path as it is written. -/
  | path (written : String) (path : Path)
  /-- A value that stands in the tag itself. -/
  | literal (value : Json)
  /-- The result of a helper, with what is handed to it in order and by name. -/
  | call (helper : String) (arguments : List Argument) (named : List (String × Argument))

/-- A helper and what is handed to it. -/
structure Call where
  /-- The name of the helper. -/
  helper : String
  /-- What is handed to it in order. -/
  arguments : List Argument
  /-- What is handed to it by name. No name is there twice. -/
  named : List (String × Argument)
  /-- What the text of a block is to call the values that the block is about. -/
  names : List String := []

/-- What a tag says. -/
inductive Tag where
  /-- A value, or the result of the helper that has its name. -/
  | value (argument : Argument)
  /-- The result of a helper. -/
  | call (call : Call)
  /-- The start of a block. -/
  | start (call : Call)
  /-- The start of the other text of a block. -/
  | otherwise
  /-- The start of the other text of a block, which is all one block in turn and ends with it. -/
  | otherwiseIf (call : Call)
  /-- The end of a block. -/
  | finish (helper : String)
  /-- Nothing that is put in. -/
  | comment
  /-- A template or a decorator, by name. The language has none. -/
  | foreign (name : String)

/-- What a tag takes away of the text on one side of it. -/
inductive Margin where
  /-- Nothing. -/
  | none
  /-- What there is between the tag and the next line, or the start of the tag's own line. -/
  | line
  /-- All white space. -/
  | whiteSpace
deriving DecidableEq

/-- A part of a template as it is written. -/
inductive Piece where
  | text (chars : List Char)
  /-- A tag, and what it takes away before it and after it. -/
  | tag (tag : Tag) (before after : Margin)

/-- A part of a template. -/
inductive Node where
  /-- Text that stands for itself. -/
  | text (chars : List Char)
  /-- A value, or the result of the helper that has its name. -/
  | value (argument : Argument)
  /-- The result of a helper. -/
  | call (call : Call)
  /-- Two texts and the helper that decides on them. -/
  | block (call : Call) (body otherwise : List Node)
  /-- A template or a decorator, which the language does not have. -/
  | foreign (name : String)

end StyleModule.Template

namespace StyleModule

/-- A template that has been read. -/
abbrev Template := List Template.Node

end StyleModule
