/-
Texts and numbers as they are printed.

These are the leaves of a printed value. What is printed for each of them is one of
the texts that spell it, so it is read back by what holds of all such texts. An
integer of no more than 64 bits is read as that integer, and not as a float
(`toDocument_numeral`).

A control without a letter of its own is printed as a 16-bit unit and is read as
one. It is no half of a pair, so the units next to it do not matter.
-/
import LoadTest.Json.Basic
import LoadTest.Proofs.Json.Lexical
import Mathlib.Data.List.Forall2

set_option autoImplicit false

namespace LoadTest

/-! ## Digits -/

namespace Decimal

/-- Further digits never make a number smaller. -/
theorem value_le_foldl (ds : List Char) (acc : Nat) :
    acc ≤ ds.foldl (fun n c => n * 10 + digitValue c) acc := by
  induction ds generalizing acc with
  | nil => exact Nat.le_refl acc
  | cons c ds ih =>
    have hrest := ih (acc * 10 + digitValue c)
    rw [List.foldl_cons]
    omega

/-- Only zero is written with a zero in front. -/
theorem head_digits_ne_zero {n : Nat} (hn : n ≠ 0) {c : Char} {ds : List Char}
    (h : digits n = c :: ds) : c ≠ '0' := by
  induction n using Nat.strongRecOn generalizing c ds with
  | ind n ih =>
    by_cases hlt : n < 10
    · rw [digits_of_lt hlt, List.cons.injEq] at h
      rw [← h.1]
      intro hzero
      have hvalue := digitValue_digitChar hlt
      rw [hzero] at hvalue
      exact hn hvalue.symm
    · -- the first digit is that of the number without its last digit
      obtain ⟨c', ds', hfront⟩ := List.exists_cons_of_ne_nil (digits_ne_nil (n / 10))
      rw [digits_of_ge hlt, hfront, List.cons_append, List.cons.injEq] at h
      rw [← h.1]
      exact ih (n / 10) (by omega) (by omega) hfront

end Decimal

namespace Json

/-! ## Texts -/

/-- The piece as which a printed character is read. -/
def IsPieceOf (p : Piece) (c : Char) : Prop :=
  p = .char c ∨ p = .unit c.toNat ∧ c.toNat < 32

theorem hexValue?_hexDigit : ∀ n < 16, hexValue? (Quoted.hexDigit n) = some n := by decide

/-- A character is printed as a letter behind a backslash, as a unit, or as it is. -/
theorem escape_cases (c : Char) :
    (∃ m, escape c = ['\\', m] ∧ escaped? m = some c ∧ m ≠ 'u')
    ∨ (c.toNat < 32 ∧ escape c = ['\\', 'u', '0', '0', Quoted.hexDigit (c.toNat / 16),
        Quoted.hexDigit (c.toNat % 16)])
    ∨ (¬ c.toNat < 32 ∧ c ≠ '"' ∧ c ≠ '\\' ∧ escape c = [c]) := by
  by_cases hletter : c ∈ ['"', '\\', '\x08', '\t', '\n', '\x0c', '\r']
  · left
    simp only [List.mem_cons, List.not_mem_nil, or_false] at hletter
    rcases hletter with rfl | rfl | rfl | rfl | rfl | rfl | rfl
    all_goals exact ⟨_, rfl, rfl, by decide⟩
  · right
    simp only [List.mem_cons, List.not_mem_nil, or_false, not_or] at hletter
    obtain ⟨h₁, h₂, h₃, h₄, h₅, h₆, h₇⟩ := hletter
    rw [escape, if_neg h₁, if_neg h₂, if_neg h₃, if_neg h₄, if_neg h₅, if_neg h₆, if_neg h₇]
    by_cases hcontrol : c.toNat < 32
    · exact .inl ⟨hcontrol, if_pos hcontrol⟩
    · exact .inr ⟨hcontrol, h₁, h₂, if_neg hcontrol⟩

/-- A control is printed in two hexadecimal digits behind two zeros. -/
theorem hexUnit?_of_lt {n : Nat} (h : n < 32) :
    hexUnit? '0' '0' (Quoted.hexDigit (n / 16)) (Quoted.hexDigit (n % 16)) = some n := by
  have hzero : hexValue? '0' = some 0 := hexValue?_hexDigit 0 (by omega)
  have hhigh := hexValue?_hexDigit (n / 16) (by omega)
  have hlow := hexValue?_hexDigit (n % 16) (by omega)
  have hsum : ((0 * 16 + 0) * 16 + n / 16) * 16 + n % 16 = n := by omega
  rw [hexUnit?, hzero, hhigh, hlow]
  exact congrArg some hsum

/-- What is printed for a character spells a piece that stands for it. -/
theorem spelled_escape (c : Char) : ∃ p, PieceSpelled p (escape c) ∧ IsPieceOf p c := by
  rcases escape_cases c with ⟨m, hm, hescaped, -⟩ | ⟨hcontrol, hunit⟩ | ⟨hplain, hquote, hslash, hc⟩
  · rw [hm]
    exact ⟨.char c, .escaped hescaped, .inl rfl⟩
  · rw [hunit]
    exact ⟨.unit c.toNat, .unit (hexUnit?_of_lt hcontrol), .inr ⟨rfl, hcontrol⟩⟩
  · rw [hc]
    exact ⟨.char c, .plain hplain hquote hslash, .inl rfl⟩

/-- What is printed for characters spells their pieces, one by one. -/
theorem spelled_flatMap_escape (cs : List Char) :
    ∃ ps, PiecesSpelled ps (cs.flatMap escape) ∧ List.Forall₂ IsPieceOf ps cs := by
  induction cs with
  | nil => exact ⟨[], .nil, .nil⟩
  | cons c cs ih =>
    obtain ⟨ps, hps, hpieces⟩ := ih
    obtain ⟨p, hp, hpiece⟩ := spelled_escape c
    exact ⟨p :: ps, .cons hp hps, .cons hpiece hpieces⟩

/-- Pieces that stand for characters one by one make up these characters. -/
theorem joinPieces_of_isPieceOf {ps : List Piece} {cs : List Char}
    (h : List.Forall₂ IsPieceOf ps cs) : joinPieces ps = some cs := by
  induction h with
  | nil => rfl
  | @cons p c ps cs hp _ ih =>
    rcases hp with rfl | ⟨rfl, hc⟩
    · rw [joinPieces, ih]
      rfl
    · have hhigh : isHighHalf c.toNat = false := by
        rw [isHighHalf, Bool.and_eq_false_iff]
        exact .inl (by simp; omega)
      have hlow : isLowHalf c.toNat = false := by
        rw [isLowHalf, Bool.and_eq_false_iff]
        exact .inl (by simp; omega)
      -- whatever the next piece is, a unit that is no half of a pair stands for itself
      have hself : joinPieces (.unit c.toNat :: ps) = (joinPieces ps).map (c :: ·) := by
        rcases ps with _ | ⟨_ | l, ps⟩
        · simp [joinPieces, hhigh, hlow]
        · simp [joinPieces, hhigh, hlow]
        · simp [joinPieces, hhigh, hlow]
      rw [hself, ih]
      rfl

/-- What is printed for a text spells pieces that are read as that text. -/
theorem spelled_text (s : String) :
    ∃ ps, PiecesSpelled ps (s.toList.flatMap escape) ∧ textDocument ps = .text s := by
  obtain ⟨ps, hps, hpieces⟩ := spelled_flatMap_escape s.toList
  refine ⟨ps, hps, ?_⟩
  rw [textDocument, joinPieces_of_isPieceOf hpieces]
  exact congrArg Document.text String.ofList_toList

/-! ## Numbers -/

/-- The number as which a printed integer is read. -/
def numeral (n : Int) : Numeral := ⟨decide (n < 0), Decimal.digits n.natAbs, none, none⟩

/-- The digits of a number spell it. They start with a zero only if they are that
zero. -/
theorem unsignedSpelled_digits (negative : Bool) (n : Nat) :
    Numeral.UnsignedSpelled ⟨negative, Decimal.digits n, none, none⟩ (Decimal.digits n) := by
  have hdigits : Digits (Decimal.digits n) :=
    ⟨Decimal.digits_ne_nil n, fun _ hc => Decimal.isDigit_of_mem_digits hc⟩
  have hzero : (Decimal.digits n).head? = some '0' → Decimal.digits n = ['0'] := by
    intro hhead
    by_cases hn : n = 0
    · rw [hn]
      exact Decimal.digits_of_lt (by decide)
    · obtain ⟨ds, hds⟩ := List.head?_eq_some_iff.mp hhead
      exact absurd rfl (Decimal.head_digits_ne_zero hn hds)
  have h := Numeral.UnsignedSpelled.mk (n := ⟨negative, Decimal.digits n, none, none⟩) hdigits
    hzero .none .none
  rwa [List.append_nil, List.append_nil] at h

/-- What is printed for an integer spells the number as which it is read. -/
theorem spelled_intDigits (n : Int) : (numeral n).Spelled (Decimal.intDigits n) := by
  have hdigits := unsignedSpelled_digits (decide (n < 0)) n.natAbs
  rw [Decimal.intDigits]
  by_cases hn : n < 0
  · rw [if_pos hn]
    exact .negative (decide_eq_true hn) hdigits
  · rw [if_neg hn]
    exact .positive (decide_eq_false hn) hdigits

/-- Digits that fit are all gathered. -/
theorem gather_of_lt (ds : List Char) (acc : Nat)
    (h : ds.foldl (fun n c => n * 10 + Decimal.digitValue c) acc < UInt64.size) :
    Numeral.gather acc ds = (ds.foldl (fun n c => n * 10 + Decimal.digitValue c) acc, []) := by
  induction ds generalizing acc with
  | nil => rfl
  | cons c ds ih =>
    have hle := Decimal.value_le_foldl ds (acc * 10 + Decimal.digitValue c)
    rw [List.foldl_cons] at h ⊢
    have hnext : acc * 10 + Decimal.digitValue c < UInt64.size := Nat.lt_of_le_of_lt hle h
    rw [Numeral.gather]
    simp only [if_pos hnext]
    exact ih _ h

/-- An integer that takes 64 bits, with a sign or without. -/
def FitsWord (n : Int) : Prop := Int64.minValue.toInt ≤ n ∧ n < UInt64.size

theorem fitsWord_int64 (n : Int64) : FitsWord n.toInt := by
  have hlow := n.minValue_le_toInt
  have hhigh := n.toInt_le
  have hmax : Int64.maxValue.toInt = 9223372036854775807 := by decide
  have hsize : UInt64.size = 18446744073709551616 := rfl
  exact ⟨hlow, by omega⟩

theorem fitsWord_uint64 (n : UInt64) : FitsWord n.toNat := by
  have hmin : Int64.minValue.toInt = -9223372036854775808 := by decide
  have hsize := n.toNat_lt_size
  exact ⟨by omega, by omega⟩

theorem fitsWord_uint32 (n : UInt32) : FitsWord n.toNat := by
  have hmin : Int64.minValue.toInt = -9223372036854775808 := by decide
  have hsize : UInt64.size = 18446744073709551616 := rfl
  have hn := n.toNat_lt
  exact ⟨by omega, by omega⟩

theorem fitsWord_int32 (n : Int32) : FitsWord n.toInt := by
  have hmin : Int64.minValue.toInt = -9223372036854775808 := by decide
  have hsize : UInt64.size = 18446744073709551616 := rfl
  have hlow := n.le_toInt
  have hhigh := n.toInt_lt
  exact ⟨by omega, by omega⟩

/-- A printed integer of 64 bits reads back as that integer. Zero is printed
without a sign, so it is not taken for a fraction. -/
theorem toDocument_numeral {n : Int} (h : FitsWord n) : (numeral n).toDocument = .integer n := by
  obtain ⟨hlow, hhigh⟩ := h
  have hmin : Int64.minValue.toInt = -9223372036854775808 := by decide
  have hsize : n.natAbs < UInt64.size := by
    have h64 : UInt64.size = 18446744073709551616 := rfl
    omega
  have hgather : Numeral.gather 0 (Decimal.digits n.natAbs) = (n.natAbs, []) := by
    have hvalue := Decimal.value_digits n.natAbs
    rw [Decimal.value] at hvalue
    rw [gather_of_lt _ _ (by rw [hvalue]; exact hsize), hvalue]
  rw [numeral, Numeral.toDocument]
  simp only [hgather, Option.isSome_none, Bool.false_eq_true, ne_eq, not_true_eq_false, or_self,
    if_false]
  by_cases hn : n < 0
  · have hfits : 0 < n.natAbs ∧ Int64.minValue.toInt ≤ -(n.natAbs : Int) := by omega
    have habs : -(n.natAbs : Int) = n := by omega
    rw [decide_eq_true hn, if_pos rfl, if_pos hfits, habs]
  · have habs : (n.natAbs : Int) = n := by omega
    rw [decide_eq_false hn, if_neg Bool.false_ne_true, habs]

end Json

end LoadTest
