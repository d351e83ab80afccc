/-
Numbers in JSON texts.

A number is first cut out of the text by its grammar. An integer that fits 64
bits, signed or unsigned, stays an integer. Every other number becomes a
double-precision one: its digits are gathered in 64 bits, digits that do not fit
any more count as powers of ten or are dropped, and the result is scaled by a
power of ten with one rounding. Numbers beyond the finite ones can be passed
over, but not read.
-/
import LoadTest.Document.Basic

set_option autoImplicit false

namespace LoadTest.Json

/-- A number as it stands in a text. -/
structure Numeral where
  negative : Bool
  /-- The digits before the point. -/
  whole : List Char
  /-- The digits behind the point, if there is one. -/
  part : Option (List Char)
  /-- The exponent, if there is one: whether it is negative, and its digits. -/
  exponent : Option (Bool × List Char)

namespace Numeral

/-! ## Cutting out -/

/-- The exponent at the beginning of a text, and what follows it; none if the
text has an `e` without digits. -/
def scanExponent (cs : List Char) : Option (Option (Bool × List Char) × List Char) :=
  match cs with
  | e :: rest =>
    if e = 'e' ∨ e = 'E' then
      let signed : Bool × List Char :=
        match rest with
        | '+' :: r => (false, r)
        | '-' :: r => (true, r)
        | r => (false, r)
      let ds := signed.2.takeWhile Decimal.isDigit
      if ds.isEmpty then none else some (some (signed.1, ds), signed.2.dropWhile Decimal.isDigit)
    else some (none, cs)
  | [] => some (none, cs)

/-- The fraction at the beginning of a text, and what follows it; none if the
text has a point without digits. -/
def scanPart (cs : List Char) : Option (Option (List Char) × List Char) :=
  match cs with
  | '.' :: rest =>
    let ds := rest.takeWhile Decimal.isDigit
    if ds.isEmpty then none else some (some ds, rest.dropWhile Decimal.isDigit)
  | _ => some (none, cs)

/-- The number without sign at the beginning of a text, and what follows it.
Its first digit is a zero only if it is the only one before the point. -/
def scanUnsigned (negative : Bool) (cs : List Char) : Option (Numeral × List Char) := do
  let whole := cs.takeWhile Decimal.isDigit
  match whole with
  | [] => none
  | '0' :: _ :: _ => none
  | _ =>
    let p ← scanPart (cs.dropWhile Decimal.isDigit)
    let e ← scanExponent p.2
    some (⟨negative, whole, p.1, e.1⟩, e.2)

/-- The number at the beginning of a text, and what follows it. -/
def scan : List Char → Option (Numeral × List Char)
  | '-' :: cs => scanUnsigned true cs
  | cs => scanUnsigned false cs

/-! ## Value -/

/-- Digits gathered in 64 bits, until one does not fit any more. The answer is
the number gathered, and the digits that are left. -/
def gather : Nat → List Char → Nat × List Char
  | acc, [] => (acc, [])
  | acc, c :: cs =>
    let next := acc * 10 + Decimal.digitValue c
    if next < UInt64.size then gather next cs else (acc, c :: cs)

/-- A power of ten as a double-precision number. -/
def powerOfTen (n : Nat) : Binary64 := Binary64.ofNat (Nat.pow 10 n)

/-- A number scaled by a power of ten. Powers beyond the finite ones are applied
in steps of `10 ^ 308`; four of them turn every number into zero. -/
def scale : Nat → Binary64 → Int → Binary64
  | 0, x, _ => x
  | steps + 1, x, e =>
    if e.natAbs ≤ 308 then
      if 0 ≤ e then x.mul (powerOfTen e.toNat) else x.div (powerOfTen e.natAbs)
    else if x.isZero then x
    else if 0 ≤ e then .infinite false
    else scale steps (x.div (powerOfTen 308)) (e + 308)

/-- Whether an exponent exceeds the range of a 32-bit integer. -/
def isHuge (ds : List Char) : Bool := Int32.maxValue.toInt < Decimal.value ds

/-- The magnitude of a number that is no integer, from the digits gathered
before the point and the number of those that did not fit. -/
def magnitude (significand : Nat) (dropped : Nat) (n : Numeral) : Binary64 :=
  let g := gather significand (n.part.getD [])
  let used := (n.part.getD []).length - g.2.length
  let start : Int := (dropped : Int) - used
  match n.exponent with
  | none => scale 5 (Binary64.ofNat g.1) start
  | some (negative, ds) =>
    if isHuge ds then
      if g.1 = 0 ∨ negative then .finite false 0 (-1074) else .infinite false
    else
      let e : Int := Decimal.value ds
      scale 5 (Binary64.ofNat g.1) (if negative then start - e else start + e)

/-- The number as a document. -/
def toDocument (n : Numeral) : Document :=
  let g := gather 0 n.whole
  let float : Document :=
    let x := magnitude g.1 g.2.length n
    if x.isFinite then .float (if n.negative then x.neg else x) else .barred .malformed (.float x)
  if n.part.isSome ∨ n.exponent.isSome ∨ g.2 ≠ [] then float
  else if n.negative then
    if 0 < g.1 ∧ Int64.minValue.toInt ≤ -(g.1 : Int) then .integer (-(g.1 : Int)) else float
  else .integer g.1

end Numeral

end LoadTest.Json
