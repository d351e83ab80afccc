/-
Dates and times in TOML texts.

A date, a time, or both with or without an offset. The numbers are checked
against the calendar, and the written form is made uniform: capital letters
between the parts, no superfluous zeros in a fraction of a second, which counts
up to nine places.
-/
import LoadTest.Text.Decimal

set_option autoImplicit false

namespace LoadTest.Toml

/-- A date, a time and an offset from universal time in minutes; what is not
given is left out. -/
structure DateTime where
  date : Option (Nat × Nat × Nat)
  /-- Hour, minute, second, and nanosecond. -/
  time : Option (Nat × Nat × Nat × Nat)
  /-- Whether the offset is written as a letter, and the offset. -/
  offset : Option (Bool × Int)

namespace DateTime

/-- What a time and its offset may be. -/
structure Bounds where
  lastHour : Nat
  /-- Whether an offset may have so many hours and minutes. -/
  admitsShift : Nat → Nat → Bool

/-- The bounds for date-times that are values of their own. -/
def Bounds.value : Bounds := ⟨23, fun h m => h < 24 && m < 60⟩

/-- The bounds for date-times that are the whole of a quoted text: the end of a
day counts as a time, and an offset must not exceed a day. -/
def Bounds.quoted : Bounds := ⟨24, fun h m => h * 60 + m ≤ 24 * 60⟩

/-- A number of exactly `n` digits. -/
def scanDigits (n : Nat) (cs : List Char) : Option (Nat × List Char) :=
  let ds := cs.take n
  if ds.length = n ∧ ds.all Decimal.isDigit then some (Decimal.value ds, cs.drop n) else none

/-- A character that must stand next. -/
def scanChar (c : Char) : List Char → Option (List Char)
  | d :: cs => if d = c then some cs else none
  | [] => none

/-- Whether a year has a 29th of February. -/
def isLeap (y : Nat) : Bool := (y % 4 == 0 && y % 100 != 0) || y % 400 == 0

/-- The number of days of a month. -/
def daysIn (y m : Nat) : Nat :=
  if m = 2 then (if isLeap y then 29 else 28)
  else if m = 4 ∨ m = 6 ∨ m = 9 ∨ m = 11 then 30
  else 31

/-- A date of the calendar. -/
def scanDate (cs : List Char) : Option ((Nat × Nat × Nat) × List Char) := do
  let y ← scanDigits 4 cs
  let cs ← scanChar '-' y.2
  let m ← scanDigits 2 cs
  let cs ← scanChar '-' m.2
  let d ← scanDigits 2 cs
  if 1 ≤ m.1 ∧ m.1 ≤ 12 ∧ 1 ≤ d.1 ∧ d.1 ≤ daysIn y.1 m.1 then some ((y.1, m.1, d.1), d.2) else none

/-- The nanoseconds that the digits of a fraction make. -/
def nanoseconds (ds : List Char) : Nat :=
  Decimal.value ((ds ++ List.replicate 9 '0').take 9)

/-- A time of the day, leap seconds included. -/
def scanTime (b : Bounds) (cs : List Char) : Option ((Nat × Nat × Nat × Nat) × List Char) := do
  let h ← scanDigits 2 cs
  let cs ← scanChar ':' h.2
  let m ← scanDigits 2 cs
  let cs ← scanChar ':' m.2
  let s ← scanDigits 2 cs
  if b.lastHour < h.1 ∨ 60 ≤ m.1 ∨ 60 < s.1 then none
  match s.2 with
  | '.' :: rest =>
    let ds := rest.takeWhile Decimal.isDigit
    if ds.isEmpty then none
    else some ((h.1, m.1, s.1, nanoseconds ds), rest.dropWhile Decimal.isDigit)
  | rest => some ((h.1, m.1, s.1, 0), rest)

/-- The hours and minutes of an offset. -/
def scanShift (b : Bounds) (sign : Int) (cs : List Char) :
    Option ((Bool × Int) × List Char) := do
  let h ← scanDigits 2 cs
  let cs ← scanChar ':' h.2
  let m ← scanDigits 2 cs
  if !b.admitsShift h.1 m.1 then none
  some ((false, sign * (h.1 * 60 + m.1 : Nat)), m.2)

/-- An offset; nothing if none is given, a failure if one is given badly. -/
def scanOffset (b : Bounds) : List Char → Option (Option (Bool × Int) × List Char)
  | 'Z' :: cs => some (some (true, 0), cs)
  | 'z' :: cs => some (some (true, 0), cs)
  | '+' :: cs => (scanShift b 1 cs).map fun r => (some r.1, r.2)
  | '-' :: cs => (scanShift b (-1) cs).map fun r => (some r.1, r.2)
  | cs => some (none, cs)

/-- The text behind what may stand between date and time. -/
def separator? : List Char → Option (List Char)
  | 'T' :: cs => some cs
  | 't' :: cs => some cs
  | ' ' :: cs => some cs
  | _ => none

/-- A date, with a time behind it if there is one. -/
def scanFromDate (b : Bounds) (cs : List Char) : Option (DateTime × List Char) := do
  let d ← scanDate cs
  match (separator? d.2).bind (scanTime b) with
  | none => some (⟨some d.1, none, none⟩, d.2)
  | some t =>
    let o ← scanOffset b t.2
    some (⟨some d.1, some t.1, o.1⟩, o.2)

/-- A date or a time. -/
def scan (b : Bounds) (cs : List Char) : Option (DateTime × List Char) :=
  match scanFromDate b cs with
  | some r => some r
  | none => (scanTime b cs).map fun t => (⟨none, some t.1, none⟩, t.2)

/-- Whether a text is a date or a time and nothing else. -/
def isText (s : String) : Bool := (scan .quoted s.toList).any (·.2.isEmpty)

/-! ## Writing -/

/-- A number with at least `n` digits. -/
def padded (n k : Nat) : List Char :=
  List.replicate (n - (Decimal.digits k).length) '0' ++ Decimal.digits k

/-- A date as text. -/
def dateChars (d : Nat × Nat × Nat) : List Char :=
  padded 4 d.1 ++ ['-'] ++ padded 2 d.2.1 ++ ['-'] ++ padded 2 d.2.2

/-- A time as text. -/
def timeChars (t : Nat × Nat × Nat × Nat) : List Char :=
  padded 2 t.1 ++ [':'] ++ padded 2 t.2.1 ++ [':'] ++ padded 2 t.2.2.1
    ++ (if t.2.2.2 = 0 then []
      else '.' :: ((padded 9 t.2.2.2).reverse.dropWhile (· == '0')).reverse)

/-- An offset as text. -/
def offsetChars : Bool × Int → List Char
  | (true, _) => ['Z']
  | (false, m) =>
    (if m < 0 then '-' else '+') :: (padded 2 (m.natAbs / 60) ++ [':'] ++ padded 2 (m.natAbs % 60))

/-- A date-time as text. -/
def text (d : DateTime) : String :=
  let date := (d.date.map dateChars).getD []
  let time := (d.time.map timeChars).getD []
  String.ofList (date ++ (if d.date.isSome ∧ d.time.isSome then ['T'] else []) ++ time
    ++ (d.offset.map offsetChars).getD [])

end DateTime

end LoadTest.Toml
