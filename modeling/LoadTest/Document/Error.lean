/-
Why a document is no value of the type that is read from it.

Either the text is not well formed, or it is and something in it does not fit.
In the second case the cause says what was found and what was expected. The
wording leaves one thing open, the layout of numbers with a fraction, because
the formats write them differently.
-/
import LoadTest.Number.Shortest
import LoadTest.Text.Quoted

set_option autoImplicit false

namespace LoadTest

/-- What stands in a document. -/
inductive Found where
  | null
  | bool (b : Bool)
  | integer (n : Int)
  | float (x : Binary64)
  | text (s : String)
  | sequence
  | map
  deriving DecidableEq

/-- What a reader asks for. -/
inductive Expected where
  | string
  | boolean
  /-- A natural number of so many bits. -/
  | unsigned (bits : Nat)
  /-- An integer of so many bits. -/
  | signed (bits : Nat)
  | sequence
  | map
  | unit
  /-- The name of one of several variants. -/
  | variant
  /-- The name of a member. -/
  | member
  /-- A record with a given name. -/
  | record (name : String)
  /-- A record whose tag says which of several it is. -/
  | taggedRecord (name : String)
  deriving DecidableEq

/-- Why a well-formed document does not fit. -/
inductive Misfit where
  | invalidType (found : Found) (expected : Expected)
  /-- The right type, but out of range. -/
  | invalidValue (found : Found) (expected : Expected)
  | missingMember (name : String)
  | duplicateMember (name : String)
  /-- The name of no variant. -/
  | unknownVariant (name : String) (known : List String)
  /-- An array too short for a record with so many members. -/
  | shortRecord (length : Nat) (record : String) (members : Nat)
  /-- An array of which only so many elements are asked for. -/
  | longSequence (length consumed : Nat)
  /-- A value of none of the shapes that a type admits. -/
  | noVariant (type : String)
  /-- A scalar that its tag or its size rules out. -/
  | unsuitedScalar (s : String)
  /-- A value whose tag names a variant where there is none. -/
  | unsuitedTag (name : String)
  /-- A value with too many levels. -/
  | tooDeep
  /-- A value that repeats other values too often. -/
  | tooRepetitive
  deriving DecidableEq

/-- Why a text is no document of a type. -/
inductive DecodeError where
  /-- The text is not well formed. -/
  | malformed
  /-- The text is well formed. -/
  | misfit (m : Misfit)
  deriving DecidableEq

/-- The value of a type, or why there is none. -/
abbrev Decoded (α : Type) := Except DecodeError α

/-- Refuse a well-formed document. -/
def Decoded.misfit {α : Type} (m : Misfit) : Decoded α := .error (.misfit m)

/-- Two steps succeed if the first one does, and the second one with its answer. -/
theorem Decoded.bind_eq_ok {α β : Type} {x : Decoded α} {f : α → Decoded β} {b : β} :
    (x >>= f) = .ok b ↔ ∃ a, x = .ok a ∧ f a = .ok b := by
  cases x with
  | error e => simp [bind, Except.bind]
  | ok a => simp [bind, Except.bind]

theorem Decoded.map_eq_ok {α β : Type} {x : Decoded α} {f : α → β} {b : β} :
    x.map f = .ok b ↔ ∃ a, x = .ok a ∧ f a = b := by
  cases x with
  | error e => simp [Except.map]
  | ok a => simp [Except.map]

/-! ## Wording -/

/-- The wording of what was found. -/
def Found.describe (floats : Shortest.Layout) : Found → String
  | .null => "null"
  | .bool b => "boolean `" ++ (if b then "true" else "false") ++ "`"
  | .integer n => "integer `" ++ String.ofList (Decimal.intDigits n) ++ "`"
  | .float x => "floating point `" ++ String.ofList (Shortest.text floats x) ++ "`"
  | .text s => "string " ++ String.ofList (Quoted.text s)
  | .sequence => "sequence"
  | .map => "map"

/-- The wording of what was expected. -/
def Expected.describe : Expected → String
  | .string => "a string"
  | .boolean => "a boolean"
  | .unsigned bits => "u" ++ Decimal.text bits
  | .signed bits => "i" ++ Decimal.text bits
  | .sequence => "a sequence"
  | .map => "a map"
  | .unit => "unit"
  | .variant => "variant identifier"
  | .member => "field identifier"
  | .record name => "struct " ++ name
  | .taggedRecord name => "internally tagged enum " ++ name

/-- A number of elements. -/
def elementCount (n : Nat) : String :=
  Decimal.text n ++ (if n = 1 then " element" else " elements")

/-- A name between backticks. -/
def backticked (s : String) : String := "`" ++ s ++ "`"

/-- The names of which one was expected. -/
def alternatives : List String → String
  | [] => "there are no variants"
  | [a] => "expected " ++ backticked a
  | [a, b] => "expected " ++ backticked a ++ " or " ++ backticked b
  | names => "expected one of " ++ String.intercalate ", " (names.map backticked)

/-- The wording of a misfit. -/
def Misfit.message (floats : Shortest.Layout) : Misfit → String
  | .invalidType found expected =>
    "invalid type: " ++ found.describe floats ++ ", expected " ++ expected.describe
  | .invalidValue found expected =>
    "invalid value: " ++ found.describe floats ++ ", expected " ++ expected.describe
  | .missingMember name => "missing field " ++ backticked name
  | .duplicateMember name => "duplicate field " ++ backticked name
  | .unknownVariant name known =>
    "unknown variant " ++ backticked name ++ ", " ++ alternatives known
  | .shortRecord length record members =>
    "invalid length " ++ Decimal.text length ++ ", expected struct " ++ record ++ " with "
      ++ elementCount members
  | .longSequence length consumed =>
    "invalid length " ++ Decimal.text length ++ ", expected " ++ elementCount consumed
      ++ " in sequence"
  | .noVariant type => "data did not match any variant of untagged enum " ++ type
  | .unsuitedScalar s => "scalar out of range or against its tag: " ++ s
  | .unsuitedTag name => "unexpected tag " ++ name
  | .tooDeep => "recursion limit exceeded"
  | .tooRepetitive => "repetition limit exceeded"

end LoadTest
