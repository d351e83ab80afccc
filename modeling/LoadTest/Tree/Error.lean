/-
Why an edit of a tree is refused.
-/
import LoadTest.Tree.Path.Text

set_option autoImplicit false

namespace LoadTest

/-- Why an edit was refused. -/
inductive EditError where
  /-- There is no node at the path. -/
  | noSuchNode (path : Path)
  /-- The position is beyond the end of the children. -/
  | indexOutOfBounds (index len : Nat)
  deriving DecidableEq

/-- The name of the cause. -/
def EditError.name : EditError → String
  | .noSuchNode _ => "NoSuchNode"
  | .indexOutOfBounds .. => "IndexOutOfBounds"

/-- The wording of the error. -/
def EditError.message : EditError → String
  | .noSuchNode p => "no node at " ++ p.text
  | .indexOutOfBounds i n =>
    "child index " ++ Decimal.text i ++ " out of bounds (len " ++ Decimal.text n ++ ")"

end LoadTest
