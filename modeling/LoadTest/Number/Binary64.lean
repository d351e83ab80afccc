/-
Double-precision numbers, exactly.

A finite value is a sign, a significand and a power of two. Rounding is done on
ratios of natural numbers: `Binary64.ofRatio` gives the nearest value, ties to
the even significand, and an infinity beyond the largest finite value. The
arithmetic operations are the exact result, rounded once.
-/

set_option autoImplicit false

namespace LoadTest

/-- A double-precision number. A finite value stands for `m * 2 ^ e`, where `e`
is at least -1074 and `m` is below `2 ^ 53`, and not below `2 ^ 52` unless `e`
is -1074. -/
inductive Binary64 where
  | nan
  | infinite (negative : Bool)
  | finite (negative : Bool) (m : Nat) (e : Int)
  deriving DecidableEq

namespace Binary64

/-- The quotient rounded to the nearest natural number, ties to even. -/
def roundDiv (num den : Nat) : Nat :=
  let q := num / den
  let r := num % den
  if 2 * r < den then q
  else if den < 2 * r then q + 1
  else if q % 2 = 0 then q else q + 1

/-- Numerator and denominator of a ratio divided by `2 ^ e`. -/
def shifted (num den : Nat) (e : Int) : Nat × Nat :=
  if 0 ≤ e then (num, den * Nat.pow 2 e.toNat) else (num * Nat.pow 2 (-e).toNat, den)

/-- The exponent of the significand's unit for a positive ratio: the one for
which the quotient has 53 binary digits, but at least -1074. -/
def unitExponent (num den : Nat) : Int :=
  let guess : Int := (Nat.log2 num : Int) - (Nat.log2 den : Int) - 52
  let s := shifted num den guess
  let e := if s.1 / s.2 < Nat.pow 2 52 then guess - 1 else guess
  max e (-1074)

/-- The value nearest to a ratio, with a sign. -/
def ofRatio (negative : Bool) (num den : Nat) : Binary64 :=
  if num = 0 then finite negative 0 (-1074)
  else
    let e := unitExponent num den
    let s := shifted num den e
    let m := roundDiv s.1 s.2
    let r : Nat × Int := if m = Nat.pow 2 53 then (Nat.pow 2 52, e + 1) else (m, e)
    if 971 < r.2 then infinite negative else finite negative r.1 r.2

/-- The value nearest to a natural number. -/
def ofNat (n : Nat) : Binary64 := ofRatio false n 1

/-- The same number with the other sign. -/
def neg : Binary64 → Binary64
  | nan => nan
  | infinite s => infinite !s
  | finite s m e => finite (!s) m e

/-- Whether the number is neither infinite nor undefined. -/
def isFinite : Binary64 → Bool
  | finite .. => true
  | _ => false

/-- Whether the number is a zero of either sign. -/
def isZero : Binary64 → Bool
  | finite _ m _ => m == 0
  | _ => false

/-- The value nearest to `digits * 10 ^ exponent`. Exponents far out of range
are cut down first: they give zero or an infinity whatever their size. -/
def ofDecimal (negative : Bool) (digits : Nat) (exponent : Int) : Binary64 :=
  let size : Int := (Nat.log2 digits : Int) / 4
  if digits = 0 then finite negative 0 (-1074)
  else if 400 < exponent + size then infinite negative
  else if exponent + Nat.log2 digits < -400 then finite negative 0 (-1074)
  else if 0 ≤ exponent then ofRatio negative (digits * Nat.pow 10 exponent.toNat) 1
  else ofRatio negative digits (Nat.pow 10 (-exponent).toNat)

/-- The product of two finite numbers without regard to sign. -/
def mulFinite (m₁ : Nat) (e₁ : Int) (m₂ : Nat) (e₂ : Int) : Binary64 :=
  let e := e₁ + e₂
  if 0 ≤ e then ofRatio false (m₁ * m₂ * Nat.pow 2 e.toNat) 1
  else ofRatio false (m₁ * m₂) (Nat.pow 2 (-e).toNat)

/-- The quotient of two finite numbers without regard to sign. -/
def divFinite (m₁ : Nat) (e₁ : Int) (m₂ : Nat) (e₂ : Int) : Binary64 :=
  let e := e₁ - e₂
  if 0 ≤ e then ofRatio false (m₁ * Nat.pow 2 e.toNat) m₂
  else ofRatio false m₁ (m₂ * Nat.pow 2 (-e).toNat)

/-- The product of two numbers that are not negative; undefined unless both are finite. -/
def mul : Binary64 → Binary64 → Binary64
  | finite _ m₁ e₁, finite _ m₂ e₂ => mulFinite m₁ e₁ m₂ e₂
  | _, _ => nan

/-- The quotient of two numbers that are not negative; undefined unless both
are finite and the second is not zero. -/
def div : Binary64 → Binary64 → Binary64
  | finite _ m₁ e₁, finite _ m₂ e₂ => if m₂ = 0 then nan else divFinite m₁ e₁ m₂ e₂
  | _, _ => nan

end Binary64

end LoadTest
