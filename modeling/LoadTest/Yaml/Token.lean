/-
Tokens of YAML texts.

A text is first cut into tokens. What a text says by indentation, its tokens
say by brackets: a block of entries or of keys has a token at its beginning and
one at its end. A key that is only known as one by the colon behind it has its
token in front of it all the same.
-/

set_option autoImplicit false

namespace LoadTest.Yaml

/-- How a scalar is written. -/
inductive ScalarStyle where
  /-- Without marks around it. -/
  | plain
  /-- Between single or double quotation marks. -/
  | quoted
  /-- As an indented block whose line breaks count. -/
  | literal
  /-- As an indented block whose lines are joined. -/
  | folded
  deriving DecidableEq

/-- The text of a tag. Octets that encode no character are none. -/
abbrev TagText := List (Option Char)

/-- A tag as it is written. -/
structure WrittenTag where
  /-- The short name of what the tag begins with; empty if the tag is written
  in full. -/
  handle : String
  suffix : TagText
  deriving DecidableEq

/-- A token. -/
inductive Token where
  /-- A line that states the version of the language. -/
  | version (major minor : Nat)
  /-- A line that states what a handle stands for. -/
  | handle (name : String) (stem : TagText)
  | documentStart
  | documentEnd
  | blockSequenceStart
  | blockMappingStart
  | blockEnd
  | flowSequenceStart
  | flowSequenceEnd
  | flowMappingStart
  | flowMappingEnd
  /-- The dash in front of an entry. -/
  | blockEntry
  /-- The comma between entries. -/
  | flowEntry
  /-- The beginning of a key. -/
  | key
  /-- The colon in front of a value. -/
  | value
  | alias (name : String)
  | anchor (name : String)
  | tag (t : WrittenTag)
  | scalar (text : String) (style : ScalarStyle)
  deriving DecidableEq

end LoadTest.Yaml
