/-
Tags.

A tag in front of a value says what it is. Four tags belong to types that are
read in their own way, and all others of public use make a scalar a text. An
application's own tag names a variant: a value with such a tag is none of the
types that can be told by their content alone.
-/

set_option autoImplicit false

namespace LoadTest

/-- What a tag says. -/
inductive Tag where
  | null
  | bool
  | integer
  | float
  /-- Any other tag of public use. -/
  | text
  /-- An application's own tag. -/
  | variant (name : String)
  /-- An application's own tag whose name is no text; it says nothing. -/
  | unreadable
  deriving DecidableEq

end LoadTest
