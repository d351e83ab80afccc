/-
Bytes of texts and of fixed-width numbers.

Texts are taken as UTF-8. Numbers are written with their lowest byte first, in
a given number of bytes; what does not fit is cut off, so a number below
`256 ^ width` is recovered and a larger one is not.
-/

set_option autoImplicit false

namespace LoadTest.Bytes

/-- The UTF-8 bytes of a text. -/
def ofText (s : String) : List UInt8 := s.toUTF8.data.toList

/-- A number in `width` bytes, the lowest first. -/
def littleEndian : Nat → Nat → List UInt8
  | 0, _ => []
  | width + 1, n => UInt8.ofNat n :: littleEndian width (n / 256)

/-- The number that bytes form, the lowest first. -/
def number : List UInt8 → Nat
  | [] => 0
  | b :: bs => b.toNat + 256 * number bs

theorem length_littleEndian (width n : Nat) : (littleEndian width n).length = width := by
  induction width generalizing n with
  | zero => rfl
  | succ width ih => simp [littleEndian, ih]

theorem number_littleEndian {width n : Nat} (h : n < Nat.pow 256 width) :
    number (littleEndian width n) = n := by
  induction width generalizing n with
  | zero =>
    have : n = 0 := Nat.lt_one_iff.mp h
    simp [littleEndian, number, this]
  | succ width ih =>
    have hq : n / 256 < Nat.pow 256 width := by
      have hsucc : Nat.pow 256 (width + 1) = Nat.pow 256 width * 256 := rfl
      omega
    simp only [littleEndian, number, ih hq, UInt8.toNat_ofNat']
    omega

/-- Equal texts are those with equal bytes. -/
theorem ofText_injective {s t : String} (h : ofText s = ofText t) : s = t := by
  have hd : s.toUTF8.data = t.toUTF8.data := Array.toList_inj.mp h
  have hb : s.toUTF8 = t.toUTF8 := ByteArray.ext hd
  exact String.toByteArray_inj.mp hb

end LoadTest.Bytes
