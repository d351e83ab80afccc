/-
Numbers in TOML texts.

Underscores may stand between digits. Decimal integers have no superfluous
zeros; integers in other bases have no sign. All of them must fit 64 bits with
sign. A number with a fraction or an exponent is a double-precision one, and so
are the words for the infinities and for the undefined number; digits that
exceed every finite number are refused unless they are negative.
-/
import LoadTest.Document.Basic

set_option autoImplicit false

namespace LoadTest.Toml

/-- The digits behind a first one, each with at most one underscore in front. -/
def scanMoreDigits (isDigit : Char → Bool) : List Char → List Char × List Char
  | '_' :: c :: cs =>
    if isDigit c then
      let r := scanMoreDigits isDigit cs
      (c :: r.1, r.2)
    else ([], '_' :: c :: cs)
  | c :: cs =>
    if isDigit c then
      let r := scanMoreDigits isDigit cs
      (c :: r.1, r.2)
    else ([], c :: cs)
  | [] => ([], [])

/-- A run of digits, leading zeros allowed. -/
def scanDigitRun (isDigit : Char → Bool) : List Char → Option (List Char × List Char)
  | c :: cs =>
    if isDigit c then
      let r := scanMoreDigits isDigit cs
      some (c :: r.1, r.2)
    else none
  | [] => none

/-- The digits of a decimal integer: a zero alone, or a run that begins with
another digit. -/
def scanWhole : List Char → Option (List Char × List Char)
  | '0' :: cs => some (['0'], cs)
  | cs => scanDigitRun Decimal.isDigit cs

/-- The sign in front of a number, and what follows it. -/
def scanSign : List Char → Bool × List Char
  | '-' :: cs => (true, cs)
  | '+' :: cs => (false, cs)
  | cs => (false, cs)

/-- An integer that must fit 64 bits. -/
def integerDocument (n : Int) : Option Document :=
  if Int64.minValue.toInt ≤ n ∧ n ≤ Int64.maxValue.toInt then some (.integer n) else none

/-- A number that must not exceed every finite number. -/
def floatDocument (x : Binary64) : Option Document :=
  if x = .infinite false then none else some (.float x)

/-- An integer in another base, behind the letter for it. -/
def scanBased (base : Nat) (cs : List Char) : Option (Document × List Char) := do
  let r ← scanDigitRun (fun c => (Plain.digit? base c).isSome) cs
  let n ← Plain.digits? base r.1
  let d ← integerDocument n
  some (d, r.2)

/-- The exponent of a number, if it has one. -/
def scanExponent : List Char → Option (Option Int × List Char)
  | e :: cs =>
    if e = 'e' ∨ e = 'E' then do
      let s := scanSign cs
      let r ← scanDigitRun Decimal.isDigit s.2
      let n : Int := Decimal.value r.1
      some (some (if s.1 then -n else n), r.2)
    else some (none, e :: cs)
  | [] => some (none, [])

/-- The fraction of a number, if it has one. -/
def scanPart : List Char → Option (Option (List Char) × List Char)
  | '.' :: cs => (scanDigitRun Decimal.isDigit cs).map fun r => (some r.1, r.2)
  | cs => some (none, cs)

/-- A decimal number. -/
def scanDecimal (cs : List Char) : Option (Document × List Char) := do
  let s := scanSign cs
  let w ← scanWhole s.2
  let p ← scanPart w.2
  let e ← scanExponent p.2
  if p.1.isNone ∧ e.1.isNone then
    let n : Int := Decimal.value w.1
    let d ← integerDocument (if s.1 then -n else n)
    some (d, w.2)
  else
    let f : Plain.Fraction := ⟨s.1, w.1, p.1.getD [], e.1.getD 0⟩
    let d ← floatDocument f.value
    some (d, e.2)

/-- A word for a number that is not finite, with or without a sign. -/
def scanWord (cs : List Char) : Option (Document × List Char) :=
  let s := scanSign cs
  match s.2 with
  | 'i' :: 'n' :: 'f' :: rest => some (.float (.infinite s.1), rest)
  | 'n' :: 'a' :: 'n' :: rest => some (.float .nan, rest)
  | _ => none

/-- A number of any form. -/
def scanNumber (cs : List Char) : Option (Document × List Char) :=
  match cs with
  | '0' :: 'x' :: rest => scanBased 16 rest
  | '0' :: 'o' :: rest => scanBased 8 rest
  | '0' :: 'b' :: rest => scanBased 2 rest
  | _ =>
    match scanWord cs with
    | some r => some r
    | none => scanDecimal cs

end LoadTest.Toml
