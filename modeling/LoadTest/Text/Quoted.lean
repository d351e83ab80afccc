/-
Characters and texts as they are quoted in messages.

A text in a message stands between quotation marks, with the usual escapes; a
character that is not printable is shown by its number. A single character
stands between apostrophes.
-/
import LoadTest.Text.Printable

set_option autoImplicit false

namespace LoadTest.Quoted

/-- A hexadecimal digit, lower case. -/
def hexDigit (n : Nat) : Char := if n < 10 then Char.ofNat (48 + n) else Char.ofNat (87 + n)

/-- A number in hexadecimal, without leading zeros. -/
def hex (n : Nat) : List Char :=
  if _h : n < 16 then [hexDigit n] else hex (n / 16) ++ [hexDigit (n % 16)]
termination_by n

/-- The number of a character, as an escape. -/
def numbered (c : Char) : List Char := ['\\', 'u', '\x7b'] ++ hex c.toNat ++ ['\x7d']

/-- A character between quotation marks or apostrophes: the marks themselves and
the backslash behind a backslash, common controls by letter, and what has no
shape of its own by number. -/
def escaped (mark c : Char) : List Char :=
  if c = '\x00' then ['\\', '0']
  else if c = '\t' then ['\\', 't']
  else if c = '\n' then ['\\', 'n']
  else if c = '\r' then ['\\', 'r']
  else if c = mark then ['\\', mark]
  else if c = '\\' then ['\\', '\\']
  else if Printable.isPrintable c then [c]
  else numbered c

/-- A character between apostrophes. -/
def char (c : Char) : List Char := ['\''] ++ escaped '\'' c ++ ['\'']

/-- A text between quotation marks. -/
def text (s : String) : List Char := ['"'] ++ s.toList.flatMap (escaped '"') ++ ['"']

end LoadTest.Quoted
