/-
Digests: 32 bytes, written as 64 hexadecimal digits.

Printing is in lower case; reading takes either case. A text that is no digest
is refused for the first of three reasons that applies: an odd number of bytes,
a byte that is no hexadecimal digit, a wrong length.
-/
import LoadTest.Digest.Blake3
import LoadTest.Text.Bytes
import LoadTest.Text.Decimal
import LoadTest.Text.Quoted

set_option autoImplicit false

namespace LoadTest

/-- A 32-byte digest. -/
structure Digest where
  /-- The bytes of the digest. -/
  bytes : List UInt8
  /-- There are 32 of them. -/
  length_bytes : bytes.length = 32
  deriving DecidableEq

namespace Digest

/-- Why a text is no digest. -/
inductive ParseError where
  /-- The number of bytes of the text is odd. -/
  | oddLength
  /-- The byte at this position is no hexadecimal digit. -/
  | invalidDigit (byte : UInt8) (index : Nat)
  /-- The text denotes another number of bytes than 32. -/
  | invalidLength (actual : Nat)
  deriving DecidableEq

/-- The name of the cause; what concerns the digits shares one. -/
def ParseError.name : ParseError → String
  | .oddLength => "HexDecode"
  | .invalidDigit .. => "HexDecode"
  | .invalidLength _ => "InvalidLength"

/-- The wording of the error. -/
def ParseError.message : ParseError → String
  | .oddLength => "hex decode error: Odd number of digits"
  | .invalidDigit b i =>
    "hex decode error: Invalid character " ++ String.ofList (Quoted.char (Char.ofNat b.toNat))
      ++ " at position " ++ Decimal.text i
  | .invalidLength n => "invalid digest length: expected 32, got " ++ Decimal.text n

/-- The digest of some bytes. -/
def ofBytes (bs : List UInt8) : Digest := ⟨Blake3.hash bs, Blake3.length_hash bs⟩

/-- The digest whose bytes are all zero. -/
def zero : Digest := ⟨List.replicate 32 0, by decide⟩

instance : Inhabited Digest := ⟨zero⟩

/-! ## Printing -/

/-- The two digits of a byte. -/
def byteChars (b : UInt8) : List Char :=
  [Quoted.hexDigit (b.toNat / 16), Quoted.hexDigit (b.toNat % 16)]

/-- The digits of the digest. -/
def chars (d : Digest) : List Char := d.bytes.flatMap byteChars

/-- The digest as text. -/
def text (d : Digest) : String := String.ofList d.chars

/-- The digits of the first eight bytes. -/
def short (d : Digest) : String := String.ofList ((d.bytes.take 8).flatMap byteChars)

/-! ## Reading -/

/-- The value of a hexadecimal digit of either case, given as a byte. -/
def nibble? (b : UInt8) : Option Nat :=
  let n := b.toNat
  if 48 ≤ n ∧ n ≤ 57 then some (n - 48)
  else if 97 ≤ n ∧ n ≤ 102 then some (n - 87)
  else if 65 ≤ n ∧ n ≤ 70 then some (n - 55)
  else none

/-- The bytes that pairs of digits denote; `i` is the position of the first. -/
def readPairs : Nat → List UInt8 → Except ParseError (List UInt8)
  | i, a :: b :: rest =>
    match nibble? a with
    | none => .error (.invalidDigit a i)
    | some h =>
      match nibble? b with
      | none => .error (.invalidDigit b (i + 1))
      | some l =>
        match readPairs (i + 2) rest with
        | .error e => .error e
        | .ok bs => .ok (UInt8.ofNat (16 * h + l) :: bs)
  | _, _ => .ok []

/-- A digest from the bytes of its text. -/
def readBytes (bs : List UInt8) : Except ParseError Digest :=
  if bs.length % 2 = 1 then .error .oddLength
  else match readPairs 0 bs with
    | .error e => .error e
    | .ok ds => if h : ds.length = 32 then .ok ⟨ds, h⟩ else .error (.invalidLength ds.length)

/-- A digest from its text. -/
def parse (s : String) : Except ParseError Digest := readBytes (Bytes.ofText s)

/-- Digests are ordered byte by byte. -/
def cmp (a b : Digest) : Ordering :=
  if a.bytes < b.bytes then .lt else if a.bytes = b.bytes then .eq else .gt

end Digest

end LoadTest
