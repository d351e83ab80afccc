/-
Printed words as unquoted scalars.

Null, the truth values and integers are printed without quotation marks. A
reader of unquoted scalars goes by the spelling, and it must not take one of
these for another: the digits of an integer are none of the words for null, they
name no base, and they have no superfluous zero in front, which would make them
a text.
-/
import LoadTest.Proofs.Json.Value

set_option autoImplicit false

namespace LoadTest

namespace Plain

/-! ## Digits -/

theorem digit?_of_isDigit {c : Char} (h : Decimal.isDigit c = true) :
    digit? 10 c = some (Decimal.digitValue c) := by
  rw [Decimal.isDigit, Bool.and_eq_true, decide_eq_true_eq, decide_eq_true_eq] at h
  have hlow : 48 ≤ c.toNat := h.1
  have hhigh : c.toNat ≤ 57 := h.2
  have hvalue : c.toNat - 48 < 10 := by omega
  rw [digit?]
  simp only [if_pos (And.intro hlow hhigh), if_pos hvalue]
  rfl

theorem digitsFrom?_of_isDigit {ds : List Char} (h : ∀ c ∈ ds, Decimal.isDigit c = true)
    (acc : Nat) :
    digitsFrom? 10 acc ds = some (ds.foldl (fun n c => n * 10 + Decimal.digitValue c) acc) := by
  induction ds generalizing acc with
  | nil => rfl
  | cons c ds ih =>
    obtain ⟨hc, hds⟩ := List.forall_mem_cons.mp h
    simp only [digitsFrom?, digit?_of_isDigit hc, ih hds, List.foldl_cons]

theorem digits?_digits (n : Nat) : digits? 10 (Decimal.digits n) = some n := by
  have hall := digitsFrom?_of_isDigit (fun c hc => Decimal.isDigit_of_mem_digits (n := n) hc) 0
  have hvalue : (Decimal.digits n).foldl (fun n c => n * 10 + Decimal.digitValue c) 0 = n :=
    Decimal.value_digits n
  obtain ⟨c, ds, hds⟩ := List.exists_cons_of_ne_nil (Decimal.digits_ne_nil n)
  rw [hds] at hall hvalue ⊢
  rw [digits?, hall, hvalue]
  exact List.cons_ne_nil c ds

/-- The digits of a number: the first is a zero only if it is the only one. -/
theorem digits_cases (n : Nat) :
    Decimal.digits n = ['0']
    ∨ ∃ c ds, Decimal.digits n = c :: ds ∧ c ≠ '0' ∧ Decimal.isDigit c = true := by
  by_cases hn : n = 0
  · rw [hn]
    exact .inl (Decimal.digits_of_lt (by decide))
  · obtain ⟨c, ds, hds⟩ := List.exists_cons_of_ne_nil (Decimal.digits_ne_nil n)
    exact .inr ⟨c, ds, hds, Decimal.head_digits_ne_zero hn hds,
      Decimal.isDigit_of_mem_digits (hds ▸ List.mem_cons_self)⟩

/-- Digits name no base, and they are not padded. -/
theorem magnitude?_digits (n : Nat) : magnitude? (Decimal.digits n) = some n := by
  have hdigits := digits?_digits n
  rcases digits_cases n with h | ⟨c, ds, h, hc, hdigit⟩
  · rw [h] at hdigits ⊢
    exact hdigits
  · have hsign := fun d => Json.ne_of_sign_or_digit (d := d) (.inr hdigit)
    have hbased : based? (c :: ds) = none := by
      unfold based?
      split
      · simp_all
      · simp_all
      · simp_all
      · rfl
    have hafter : afterSign (c :: ds) = c :: ds := by
      unfold afterSign
      split
      · next heq => exact absurd (List.cons.inj heq).1 (by
          rintro rfl
          exact absurd hdigit (by decide))
      · next heq => exact absurd (List.cons.inj heq).1 (by
          rintro rfl
          exact absurd hdigit (by decide))
      · rfl
    have hpadded : isPadded (c :: ds) = false := by
      rw [isPadded, hafter]
      split
      · simp_all
      · rfl
    rw [h] at hdigits ⊢
    rw [magnitude?, hbased]
    simp only [decimal?, hpadded, Bool.false_eq_true, if_false, hdigits]

theorem integer?_digits (n : Nat) : integer? (Decimal.digits n) = some (n : Int) := by
  have hmagnitude := magnitude?_digits n
  rcases digits_cases n with h | ⟨c, ds, h, -, hdigit⟩
  · rw [h] at hmagnitude ⊢
    rw [integer?, hmagnitude]
    · rfl
    · simp
    · simp
  · rw [h] at hmagnitude ⊢
    rw [integer?, hmagnitude]
    · rfl
    · rintro cs ⟨⟩
      exact absurd hdigit (by decide)
    · rintro cs ⟨⟩
      exact absurd hdigit (by decide)

/-- A printed integer is spelled as that integer. -/
theorem integer?_intDigits (n : Int) : integer? (Decimal.intDigits n) = some n := by
  rw [Decimal.intDigits]
  by_cases hn : n < 0
  · have habs : -(n.natAbs : Int) = n := by omega
    rw [if_pos hn, integer?, magnitude?_digits]
    exact congrArg some habs
  · have habs : (n.natAbs : Int) = n := by omega
    rw [if_neg hn, integer?_digits, habs]

/-- A printed number has no minus sign. -/
theorem unsigned?_intDigits (n : Nat) : unsigned? (Decimal.intDigits n) = some (n : Int) := by
  have hinteger := integer?_intDigits n
  have hdigits : Decimal.intDigits n = Decimal.digits n := if_neg (by omega)
  obtain ⟨c, ds, hds⟩ := List.exists_cons_of_ne_nil (Decimal.digits_ne_nil n)
  have hdigit : Decimal.isDigit c = true :=
    Decimal.isDigit_of_mem_digits (hds ▸ List.mem_cons_self)
  rw [hdigits] at hinteger ⊢
  rw [hds] at hinteger ⊢
  rw [unsigned?, hinteger]
  rintro cs ⟨⟩
  exact absurd hdigit (by decide)

/-! ## Words -/

/-- A printed integer is none of the words that begin otherwise. -/
theorem ofList_intDigits_ne (n : Int) {w : String}
    (hw : w.toList.head?.all (fun c => c != '-' && !Decimal.isDigit c) = true) :
    String.ofList (Decimal.intDigits n) ≠ w := by
  obtain ⟨c, cs, hcs, hc⟩ := (Json.spelled_intDigits n).head
  rintro rfl
  rw [String.toList_ofList, hcs, List.head?_cons, Option.all_some, Bool.and_eq_true, bne_iff_ne,
    Bool.not_eq_true'] at hw
  obtain ⟨hsign, hdigit⟩ := hw
  exact Json.ne_of_sign_or_digit hc hsign hdigit rfl

/-- An integer of 64 bits means itself. -/
theorem resolve_intDigits {n : Int} (h : Json.FitsWord n) :
    resolve (String.ofList (Decimal.intDigits n)) = .integer n := by
  have hne := fun w => ofList_intDigits_ne n (w := w)
  have hempty : (String.ofList (Decimal.intDigits n)).isEmpty = false := by
    rw [← Bool.not_eq_true, String.isEmpty_iff]
    exact hne "" (by decide)
  have hnull : isNull (String.ofList (Decimal.intDigits n)) = false := by
    simp only [isNull, Bool.or_eq_false_iff, beq_eq_false_iff_ne, ne_eq]
    exact ⟨⟨⟨hne _ (by decide), hne _ (by decide)⟩, hne _ (by decide)⟩, hne _ (by decide)⟩
  have hbool : bool? (String.ofList (Decimal.intDigits n)) = none := by
    rw [bool?, if_neg, if_neg]
    · simp only [Bool.or_eq_true, beq_iff_eq, not_or]
      exact ⟨⟨hne _ (by decide), hne _ (by decide)⟩, hne _ (by decide)⟩
    · simp only [Bool.or_eq_true, beq_iff_eq, not_or]
      exact ⟨⟨hne _ (by decide), hne _ (by decide)⟩, hne _ (by decide)⟩
  have hplace : placeInteger n = some (.integer n) := if_pos h
  rw [resolve, hempty, hnull, hbool, String.toList_ofList, integer?_intDigits, Option.bind_some,
    hplace]
  rfl

end Plain

end LoadTest
