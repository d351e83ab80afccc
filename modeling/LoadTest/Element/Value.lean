/-
Property values of test-plan elements.

A property holds a text, a 64-bit integer, a truth value, a list of texts or a
table of name/value rows. The five shapes are told apart by their content when
they are written as a document, and by a tag byte when they are hashed.
-/

set_option autoImplicit false

namespace LoadTest

/-- The value of an element property. -/
inductive PropertyValue where
  /-- Free text. -/
  | text (s : String)
  /-- A signed 64-bit integer. -/
  | integer (n : Int64)
  /-- A truth value. -/
  | bool (b : Bool)
  /-- Texts in order. -/
  | list (items : List String)
  /-- Name/value rows in order. -/
  | table (rows : List (String × String))
  deriving DecidableEq

namespace PropertyValue

instance : Inhabited PropertyValue := ⟨text ""⟩

/-- The text, if the value is one. -/
def text? : PropertyValue → Option String
  | text s => some s
  | _ => none

/-- The integer, if the value is one. -/
def integer? : PropertyValue → Option Int64
  | integer n => some n
  | _ => none

/-- The list, if the value is one. -/
def list? : PropertyValue → Option (List String)
  | list items => some items
  | _ => none

/-- The table, if the value is one. -/
def table? : PropertyValue → Option (List (String × String))
  | table rows => some rows
  | _ => none

end PropertyValue

end LoadTest
