/-
The text of a path: `/` for the root, `/2/0` for the first child of the third
child of the root.

Printing is canonical. Reading also accepts a single plus sign and leading
zeros in a segment, and refuses an index that does not fit 64 bits; the
leftmost bad segment decides the error.
-/
import LoadTest.Tree.Path
import LoadTest.Text.Decimal

set_option autoImplicit false

namespace LoadTest.Path

/-- Why a text is no path. -/
inductive ParseError where
  /-- It does not begin with a slash. -/
  | notAbsolute
  /-- Two slashes meet, or the text ends with one. -/
  | emptySegment
  /-- A segment is no child index. -/
  | invalidSegment (segment : String)
  deriving DecidableEq

/-- The name of the cause. -/
def ParseError.name : ParseError → String
  | .notAbsolute => "NotAbsolute"
  | .emptySegment => "EmptySegment"
  | .invalidSegment _ => "InvalidSegment"

/-- The wording of the error. -/
def ParseError.message : ParseError → String
  | .notAbsolute => "path must start with '/'"
  | .emptySegment => "path contains empty segment"
  | .invalidSegment s => "invalid segment: " ++ s ++ " (must be a child index)"

/-- The characters of a printed path. -/
def chars : Path → List Char
  | [] => ['/']
  | i :: p => (i :: p).flatMap fun j => '/' :: Decimal.digits j

/-- The text of a path. -/
def text (p : Path) : String := String.ofList (chars p)

/-- The pieces of a text between its slashes; there is always one. -/
def segments : List Char → List (List Char)
  | [] => [[]]
  | c :: cs =>
    if c = '/' then [] :: segments cs
    else match segments cs with
      | [] => [[c]]
      | s :: ss => (c :: s) :: ss

/-- A run of digits whose value fits 64 bits. -/
def digitsIndex? (ds : List Char) : Option Nat :=
  if ds ≠ [] ∧ ds.all Decimal.isDigit ∧ Decimal.value ds < UInt64.size then
    some (Decimal.value ds)
  else none

/-- The index that a segment denotes: digits after at most one plus sign. -/
def segmentIndex? : List Char → Option Nat
  | '+' :: ds => digitsIndex? ds
  | ds => digitsIndex? ds

/-- One segment as an index, or what is wrong with it. -/
def readSegment (s : List Char) : Except ParseError Nat :=
  if s = [] then .error .emptySegment
  else match segmentIndex? s with
    | some i => .ok i
    | none => .error (.invalidSegment (String.ofList s))

/-- Segments from the left; the first bad one ends the reading. -/
def readSegments : List (List Char) → Except ParseError Path
  | [] => .ok []
  | s :: ss =>
    match readSegment s with
    | .error e => .error e
    | .ok i =>
      match readSegments ss with
      | .error e => .error e
      | .ok p => .ok (i :: p)

/-- A path from its characters. -/
def readChars : List Char → Except ParseError Path
  | '/' :: [] => .ok []
  | '/' :: rest => readSegments (segments rest)
  | _ => .error .notAbsolute

/-- A path from its text. -/
def parse (s : String) : Except ParseError Path := readChars s.toList

end LoadTest.Path
