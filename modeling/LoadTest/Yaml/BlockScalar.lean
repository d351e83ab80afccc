/-
Scalars that are written as indented blocks.

A header says whether line breaks count and what becomes of those at the end,
and may say how far the block is indented. Without that, the first line that is
not empty decides. In a folded block a single line break becomes a space, but
not beside a line with blanks at its beginning.
-/
import LoadTest.Text.Decimal
import LoadTest.Yaml.Cursor

set_option autoImplicit false

namespace LoadTest.Yaml

/-! ## Headers -/

/-- What becomes of the line breaks at the end of a block. -/
inductive Chomping where
  /-- The first one counts. -/
  | clip
  /-- None counts. -/
  | strip
  /-- All count. -/
  | keep
  deriving DecidableEq

/-- The sign for a chomping other than `clip`. -/
def chomping? (c : Char) : Option Chomping :=
  if c = '+' then some .keep else if c = '-' then some .strip else none

/-- A digit that says how far a block is indented; zero is no such digit. -/
inductive IndentDigit where
  | absent
  | wrong
  | width (n : Nat)

/-- The digit at the beginning of a text. -/
def indentDigit : List Char → IndentDigit
  | [] => .absent
  | c :: _ =>
    if c = '0' then .wrong
    else if Decimal.isDigit c then .width (Decimal.digitValue c)
    else .absent

/-- The chomping and the indentation that a header states, and the length of
both; they come in any order. -/
def blockHeader? (cs : List Char) : Option (Chomping × Option Nat × Nat) :=
  match cs.head?.bind chomping? with
  | some k =>
    match indentDigit (cs.drop 1) with
    | .absent => some (k, none, 1)
    | .wrong => none
    | .width n => some (k, some n, 2)
  | none =>
    match indentDigit cs with
    | .absent => some (.clip, none, 0)
    | .wrong => none
    | .width n =>
      match cs[1]?.bind chomping? with
      | some k => some (k, some n, 2)
      | none => some (.clip, some n, 1)

/-! ## Lines -/

/-- The place behind the indentation of a line: at most `indent` spaces, or as
many as there are. -/
def skipIndent (indent : Option Nat) (c : Cursor) : Cursor :=
  let spaces := (c.rest.takeWhile (· == ' ')).length
  match indent with
  | none => c.skip spaces
  | some n => c.skip (min (n - c.column) spaces)

/-- The line breaks of empty lines, the column of the longest indentation in
them, and the place behind the indentation of the line that follows. A
tabulator must not stand where the indentation is still wanting. -/
def scanEmptyLines (indent : Option Nat) : Nat → Nat → Cursor → Option (List Char × Nat × Cursor)
  | 0, _, _ => none
  | fuel + 1, widest, c =>
    let c := skipIndent indent c
    let widest := max widest c.column
    if c.rest.head? = some '\t' && indent.all (c.column < ·) then none
    else match c.nextLine? with
      | some (b, next) =>
        (scanEmptyLines indent fuel widest next).map fun r => (b :: r.1, r.2)
      | none => some ([], widest, c)

/-- What is known between two lines of a block. -/
structure BlockState where
  /-- The break at the end of the last line. -/
  lead : Option Char
  /-- The breaks of the empty lines behind it. -/
  trail : List Char
  /-- Whether the last line began with a blank. -/
  indented : Bool

/-- What stands for the line breaks in front of a further line. -/
def BlockState.joint (literal : Bool) (s : BlockState) (blank : Bool) : List Char :=
  if !literal && s.lead == some '\n' && !s.indented && !blank then
    if s.trail.isEmpty then [' '] else s.trail
  else s.lead.toList ++ s.trail

/-- The lines of a block, what is known behind the last one, and the place
there. -/
def scanBlockLines (literal : Bool) (indent : Nat) :
    Nat → BlockState → Cursor → Option (List Char × BlockState × Cursor)
  | 0, _, _ => none
  | fuel + 1, s, c =>
    if c.column = indent && !c.rest.isEmpty then
      let blank := c.rest.head?.any isBlank
      let line := c.rest.takeWhile (fun a => !isBreak a)
      let c := c.skip line.length
      let lead := c.nextLine?.map (·.1)
      let next := (c.nextLine?.map (·.2)).getD c
      match scanEmptyLines (some indent) (fuel + 1) 0 next with
      | none => none
      | some (trail, _, next) =>
        (scanBlockLines literal indent fuel ⟨lead, trail, blank⟩ next).map fun r =>
          (s.joint literal blank ++ line ++ r.1, r.2)
    else some ([], s, c)

/-- The line breaks that count at the end of a block. -/
def BlockState.ending (k : Chomping) (s : BlockState) : List Char :=
  match k with
  | .strip => []
  | .clip => s.lead.toList
  | .keep => s.lead.toList ++ s.trail

/-- A scalar that is written as a block, from its mark on. `parent` is the
column of the block around it, and `fuel` must exceed the number of characters
that are left. -/
def blockScalar (literal : Bool) (parent : Option Nat) (fuel : Nat) (c : Cursor) :
    Option (String × Cursor) := do
  let c := c.skip 1
  let (chomping, width, length) ← blockHeader? c.rest
  let c ← (c.skip length).lineEnd?
  let stated := width.map (parent.getD 0 + ·)
  let (trail, widest, c) ← scanEmptyLines stated fuel 0 c
  let indent := stated.getD (max widest (max 1 ((parent.map (· + 1)).getD 0)))
  let (text, s, c) ← scanBlockLines literal indent fuel ⟨none, trail, false⟩ c
  some (String.ofList (text ++ s.ending chomping), c)

end LoadTest.Yaml
