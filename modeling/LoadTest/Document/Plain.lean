/-
Unquoted scalars.

A scalar that is written without quotation marks may mean nothing, a truth
value or a number, and is a text otherwise. `resolve` decides by the spelling
alone: a few words for null and the truth values; integers in four bases with
at most one sign and without superfluous zeros; decimal fractions; everything
else is text. A reader that knows what it wants asks for that directly.
-/
import LoadTest.Number.Binary64
import LoadTest.Text.Decimal

set_option autoImplicit false

namespace LoadTest.Plain

/-! ## Words -/

/-- The words for nothing, apart from the empty one. -/
def isNull (s : String) : Bool := s == "~" || s == "null" || s == "Null" || s == "NULL"

/-- The words for the truth values. -/
def bool? (s : String) : Option Bool :=
  if s == "true" || s == "True" || s == "TRUE" then some true
  else if s == "false" || s == "False" || s == "FALSE" then some false
  else none

/-! ## Integers -/

/-- The value of a digit in a base up to sixteen. -/
def digit? (base : Nat) (c : Char) : Option Nat :=
  let n := c.toNat
  let v :=
    if 48 ≤ n ∧ n ≤ 57 then n - 48
    else if 97 ≤ n ∧ n ≤ 102 then n - 87
    else if 65 ≤ n ∧ n ≤ 70 then n - 55
    else base
  if v < base then some v else none

/-- The number that a run of digits stands for, given what stands before it. -/
def digitsFrom? (base : Nat) : Nat → List Char → Option Nat
  | acc, [] => some acc
  | acc, c :: cs =>
    match digit? base c with
    | some d => digitsFrom? base (acc * base + d) cs
    | none => none

/-- A run of at least one digit. -/
def digits? (base : Nat) : List Char → Option Nat
  | [] => none
  | cs => digitsFrom? base 0 cs

/-- Digits of the base that is named in front of them. -/
def based? : List Char → Option Nat
  | '0' :: 'x' :: cs => digits? 16 cs
  | '0' :: 'o' :: cs => digits? 8 cs
  | '0' :: 'b' :: cs => digits? 2 cs
  | _ => none

/-- The characters after one sign. -/
def afterSign : List Char → List Char
  | '+' :: cs => cs
  | '-' :: cs => cs
  | cs => cs

/-- Nothing but digits after an optional sign, the first of several a zero: such
a scalar is no number. -/
def isPadded (cs : List Char) : Bool :=
  match afterSign cs with
  | '0' :: d :: ds => (d :: ds).all Decimal.isDigit
  | _ => false

/-- Decimal digits without superfluous zeros. -/
def decimal? (cs : List Char) : Option Nat := if isPadded cs then none else digits? 10 cs

/-- A magnitude in one of the bases. -/
def magnitude? (cs : List Char) : Option Nat :=
  match based? cs with
  | some n => some n
  | none => decimal? cs

/-- The integer that a scalar spells: a magnitude with at most one sign. -/
def integer? : List Char → Option Int
  | '-' :: cs => (magnitude? cs).map fun n => -(n : Int)
  | '+' :: cs => (magnitude? cs).map Int.ofNat
  | cs => (magnitude? cs).map Int.ofNat

/-- The integer that a scalar spells without a minus sign. -/
def unsigned? : List Char → Option Int
  | '-' :: _ => none
  | cs => integer? cs

/-! ## Fractions -/

/-- A decimal fraction: sign, digits before and after the point, exponent. -/
structure Fraction where
  negative : Bool
  whole : List Char
  part : List Char
  exponent : Int

/-- The double-precision number nearest to a fraction. -/
def Fraction.value (f : Fraction) : Binary64 :=
  Binary64.ofDecimal f.negative (Decimal.value (f.whole ++ f.part)) (f.exponent - f.part.length)

/-- What follows the digits: nothing, or an exponent with at most one sign. -/
def exponent? : List Char → Option Int
  | [] => some 0
  | e :: cs =>
    if e = 'e' ∨ e = 'E' then
      match cs with
      | '-' :: ds => (digits? 10 ds).map fun n => -(n : Int)
      | '+' :: ds => (digits? 10 ds).map Int.ofNat
      | ds => (digits? 10 ds).map Int.ofNat
    else none

/-- Digits with at most one point and at least one digit, then an exponent. -/
def unsignedFraction? (negative : Bool) (cs : List Char) : Option Fraction :=
  let whole := cs.takeWhile Decimal.isDigit
  match cs.dropWhile Decimal.isDigit with
  | '.' :: rest =>
    let part := rest.takeWhile Decimal.isDigit
    if whole.isEmpty && part.isEmpty then none
    else (exponent? (rest.dropWhile Decimal.isDigit)).map fun e => ⟨negative, whole, part, e⟩
  | rest =>
    if whole.isEmpty then none else (exponent? rest).map fun e => ⟨negative, whole, [], e⟩

/-- A fraction with at most one sign. -/
def fraction? : List Char → Option Fraction
  | '-' :: cs => unsignedFraction? true cs
  | '+' :: cs => unsignedFraction? false cs
  | cs => unsignedFraction? false cs

/-- The words for the infinities and for the undefined number. -/
def special? (s : String) : Option Binary64 :=
  if s == ".inf" || s == ".Inf" || s == ".INF" || s == "+.inf" || s == "+.Inf" || s == "+.INF" then
    some (.infinite false)
  else if s == "-.inf" || s == "-.Inf" || s == "-.INF" then some (.infinite true)
  else if s == ".nan" || s == ".NaN" || s == ".NAN" then some .nan
  else none

/-- The double-precision number that a scalar spells. Digits that exceed every
finite number spell none. -/
def float? (s : String) : Option Binary64 :=
  match special? s with
  | some x => some x
  | none =>
    match fraction? s.toList with
    | none => none
    | some f => if f.value.isFinite then some f.value else none

/-! ## Typing by spelling -/

/-- What an unquoted scalar means. -/
inductive Meaning where
  | null
  | bool (b : Bool)
  | integer (n : Int)
  | float (x : Binary64)
  | text
  /-- An integer that needs more than 64 bits, but no more than 128. -/
  | tooLarge

/-- Place an integer by its size; none beyond 128 bits. -/
def placeInteger (n : Int) : Option Meaning :=
  if Int64.minValue.toInt ≤ n ∧ n < UInt64.size then some (.integer n)
  else if -(Nat.pow 2 127 : Nat) ≤ n ∧ n < Nat.pow 2 128 then some .tooLarge
  else none

/-- A fraction or a text. -/
def resolveFraction (s : String) : Meaning :=
  if isPadded s.toList then .text
  else match float? s with
    | some x => .float x
    | none => .text

/-- What an unquoted scalar means. -/
def resolve (s : String) : Meaning :=
  if s.isEmpty || isNull s then .null
  else match bool? s with
    | some b => .bool b
    | none => ((integer? s.toList).bind placeInteger).getD (resolveFraction s)

end LoadTest.Plain
