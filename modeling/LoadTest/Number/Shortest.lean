/-
The fewest digits that read back.

Every double-precision number has an interval of reals that round to it; its
ends belong to it exactly when the significand is even. Of the decimals with
one digit, two digits and so on, the first that lies in the interval is chosen,
and of two such decimals the nearer one. How the digits are laid out is another
matter: `positional` writes them out, `scientific` sets off a power of ten.
-/
import LoadTest.Number.Binary64
import LoadTest.Text.Decimal

set_option autoImplicit false

namespace LoadTest.Shortest

/-- A positive number in decimal: digits without trailing zeros, and the power
of ten of the first digit. -/
structure Digits where
  digits : List Char
  exponent : Int

/-- A ratio of natural numbers. -/
structure Ratio where
  num : Nat
  den : Nat

/-- The ratio `n * 2 ^ e`. -/
def Ratio.scaled (n : Nat) (e : Int) : Ratio :=
  if 0 ≤ e then ⟨n * Nat.pow 2 e.toNat, 1⟩ else ⟨n, Nat.pow 2 (-e).toNat⟩

/-- Whether `a * 10 ^ k` is below the ratio. -/
def below (a : Nat) (k : Int) (r : Ratio) : Bool :=
  if 0 ≤ k then a * Nat.pow 10 k.toNat * r.den < r.num
  else a * r.den < r.num * Nat.pow 10 (-k).toNat

/-- Whether `a * 10 ^ k` is above the ratio. -/
def above (a : Nat) (k : Int) (r : Ratio) : Bool :=
  if 0 ≤ k then r.num < a * Nat.pow 10 k.toNat * r.den
  else r.num * Nat.pow 10 (-k).toNat < a * r.den

/-- The ratio divided by `10 ^ k`, rounded down. -/
def quotient (r : Ratio) (k : Int) : Nat :=
  if 0 ≤ k then r.num / (r.den * Nat.pow 10 k.toNat) else r.num * Nat.pow 10 (-k).toNat / r.den

/-- The power of ten of the first digit of a positive ratio. -/
def leading (r : Ratio) : Int :=
  let guess : Int := ((Decimal.digits r.num).length : Int) - ((Decimal.digits r.den).length : Int)
  if quotient r guess = 0 then guess - 1 else guess

/-- The interval of a positive number: its two ends, and whether they belong to it. -/
structure Interval where
  low : Ratio
  high : Ratio
  closed : Bool

/-- The interval of `m * 2 ^ e`. Below a power of two the next number is only
half as far away. -/
def interval (m : Nat) (e : Int) : Interval where
  low := Ratio.scaled (if m = Nat.pow 2 52 ∧ -1074 < e then 4 * m - 1 else 4 * m - 2) (e - 2)
  high := Ratio.scaled (4 * m + 2) (e - 2)
  closed := m % 2 = 0

/-- Whether `a * 10 ^ k` lies in the interval. -/
def Interval.holds (i : Interval) (a : Nat) (k : Int) : Bool :=
  if i.closed then !below a k i.low && !above a k i.high
  else above a k i.low && below a k i.high

/-- Of the two neighbours of a ratio among the multiples of `10 ^ k`, the one
to be chosen, if either lies in the interval. -/
def candidate (i : Interval) (r : Ratio) (k : Int) : Option Nat :=
  let a := quotient r k
  match i.holds a k, i.holds (a + 1) k with
  | false, false => none
  | true, false => some a
  | false, true => some (a + 1)
  | true, true =>
    let middle : Ratio := ⟨2 * r.num, r.den⟩
    if above (2 * a + 1) k middle then some a
    else if below (2 * a + 1) k middle then some (a + 1)
    else if a % 2 = 0 then some a else some (a + 1)

/-- Try decimals with `n` digits and then with more, `fuel` times. -/
def search (i : Interval) (r : Ratio) (lead : Int) : Nat → Nat → Nat × Int
  | 0, n => (quotient r (lead - n + 1), lead - n + 1)
  | fuel + 1, n =>
    match candidate i r (lead - n + 1) with
    | some a => (a, lead - n + 1)
    | none => search i r lead fuel (n + 1)

/-- The fewest digits for `m * 2 ^ e`, where `m` is positive. Seventeen always
suffice. -/
def digits (m : Nat) (e : Int) : Digits :=
  let r := Ratio.scaled m e
  let found := search (interval m e) r (leading r) 17 1
  let ds := Decimal.digits found.1
  ⟨(ds.reverse.dropWhile (· == '0')).reverse, found.2 + ds.length - 1⟩

/-! ## Layout -/

/-- The digits written out, with at least one digit on either side of the point. -/
def positional (d : Digits) : List Char :=
  if d.exponent < 0 then
    ['0', '.'] ++ List.replicate (-d.exponent - 1).toNat '0' ++ d.digits
  else
    let whole := d.exponent.toNat + 1
    if d.digits.length ≤ whole then
      d.digits ++ List.replicate (whole - d.digits.length) '0' ++ ['.', '0']
    else d.digits.take whole ++ ['.'] ++ d.digits.drop whole

/-- One digit before the point, and the power of ten with its sign. -/
def scientific (d : Digits) : List Char :=
  d.digits.take 1 ++ (if d.digits.length ≤ 1 then [] else '.' :: d.digits.drop 1)
    ++ ['e', if d.exponent < 0 then '-' else '+'] ++ Decimal.digits d.exponent.natAbs

/-- How finite numbers are laid out. -/
structure Layout where
  /-- The powers of ten of the first digit for which the digits are written out. -/
  isPositional : Int → Bool

/-- A number as text. -/
def text (l : Layout) : Binary64 → List Char
  | .nan => ['N', 'a', 'N']
  | .infinite s => (if s then ['-'] else []) ++ ['i', 'n', 'f']
  | .finite s m e =>
    let body :=
      if m = 0 then ['0', '.', '0']
      else
        let d := digits m e
        if l.isPositional d.exponent then positional d else scientific d
    (if s then ['-'] else []) ++ body

end LoadTest.Shortest
