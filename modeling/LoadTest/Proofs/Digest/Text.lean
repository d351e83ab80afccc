/-
The texts of digests.

A digest is printed as 64 hexadecimal digits in lower case. Reading accepts these
texts and those that differ from them in the case of digits, and no others; a text
that is refused may be at fault in three ways, which are looked for in a fixed
order.

The reader sees bytes and the printer writes characters. The two meet on texts of
plain characters, which have one byte each (`Bytes.ofText_of_plain`), and a text
whose bytes are all digits is of that kind (`Bytes.plain_of_ofText`). Pairs of
digits are read with one of two outcomes, and each says everything about the bytes
that have led to it (`Digest.readPairs_cases`).
-/
import LoadTest.Digest.Basic
import Mathlib.Tactic.IntervalCases

set_option autoImplicit false

namespace LoadTest

/-! ## Bytes of plain characters -/

namespace Bytes

/-- The bytes of a text are those of its characters, one character after the other. -/
theorem ofText_eq_flatMap (s : String) : ofText s = s.toList.flatMap String.utf8EncodeChar := by
  have hbytes : s.toUTF8 = s.toList.utf8Encode := by
    rw [← String.toByteArray_ofList, String.ofList_toList]
    rfl
  rw [ofText, hbytes]
  exact List.toList_data_toByteArray

/-- A character below 128 is a byte. -/
theorem utf8EncodeChar_of_plain {c : Char} (h : c.toNat < 128) :
    String.utf8EncodeChar c = [c.toUInt8] :=
  if_pos (Nat.lt_succ_iff.mp h)

/-- The first byte of any other character is none. -/
theorem plain_of_utf8EncodeChar {c : Char} (h : ∀ b ∈ String.utf8EncodeChar c, b.toNat < 128) :
    c.toNat < 128 := by
  have hval : c.toNat = c.val.toNat := rfl
  simp only [String.utf8EncodeChar] at h
  split at h
  · omega
  · split at h
    · have hfirst := h _ List.mem_cons_self
      rw [UInt8.toNat_ofNat'] at hfirst
      omega
    · split at h
      · have hfirst := h _ List.mem_cons_self
        rw [UInt8.toNat_ofNat'] at hfirst
        omega
      · have hfirst := h _ List.mem_cons_self
        rw [UInt8.toNat_ofNat'] at hfirst
        omega

/-- A character below 128 is its own byte. -/
theorem ofText_of_plain {s : String} (h : ∀ c ∈ s.toList, c.toNat < 128) :
    ofText s = s.toList.map Char.toUInt8 := by
  rw [ofText_eq_flatMap]
  generalize s.toList = cs at h
  induction cs with
  | nil => rfl
  | cons c cs ih =>
    rw [List.forall_mem_cons] at h
    rw [List.flatMap_cons, utf8EncodeChar_of_plain h.1, ih h.2]
    rfl

/-- If no byte of a text is above 127, no character is: the others take more than one
byte, and high ones. -/
theorem plain_of_ofText {s : String} (h : ∀ b ∈ ofText s, b.toNat < 128) :
    ∀ c ∈ s.toList, c.toNat < 128 := by
  rw [ofText_eq_flatMap] at h
  intro c hc
  exact plain_of_utf8EncodeChar fun b hb => h b (List.mem_flatMap_of_mem hc hb)

end Bytes

namespace Digest

open Bytes (ofText)

/-! ## Digits -/

/-- The hexadecimal digits in lower case. -/
def lowerDigits : List Char :=
  ['0', '1', '2', '3', '4', '5', '6', '7', '8', '9', 'a', 'b', 'c', 'd', 'e', 'f']

/-- The hexadecimal digits in either case. -/
def hexDigits : List Char := lowerDigits ++ ['A', 'B', 'C', 'D', 'E', 'F']

/-- The byte is a hexadecimal digit. -/
def IsHexDigit (b : UInt8) : Prop := Char.ofUInt8 b ∈ hexDigits

instance : DecidablePred IsHexDigit := fun b =>
  inferInstanceAs (Decidable (Char.ofUInt8 b ∈ hexDigits))

/-- A byte that has a value is a digit, and in lower case it is what the value is
printed as. -/
theorem digit_of_nibble? {b : UInt8} {n : Nat} (h : nibble? b = some n) :
    IsHexDigit b ∧ n < 16 ∧ Quoted.hexDigit n = (Char.ofUInt8 b).toLower := by
  have hrange : (48 ≤ b.toNat ∧ b.toNat ≤ 57) ∨ (97 ≤ b.toNat ∧ b.toNat ≤ 102)
      ∨ (65 ≤ b.toNat ∧ b.toNat ≤ 70) := by
    simp only [nibble?] at h
    split at h
    · exact .inl ‹_›
    · split at h
      · exact .inr (.inl ‹_›)
      · split at h
        · exact .inr (.inr ‹_›)
        · cases h
  -- in each range there are few bytes, and each is settled by itself
  revert h
  rw [← UInt8.ofNat_toNat (x := b)]
  generalize b.toNat = m at hrange
  rcases hrange with ⟨hlow, hhigh⟩ | ⟨hlow, hhigh⟩ | ⟨hlow, hhigh⟩ <;> interval_cases m <;>
    rintro ⟨⟩ <;> decide

/-- A value is printed as a digit in lower case, which has this value. -/
theorem nibble?_hexDigit : ∀ n < 16, Quoted.hexDigit n ∈ lowerDigits
    ∧ nibble? (Quoted.hexDigit n).toUInt8 = some n := by
  decide

/-- A byte is refused exactly if it is no hexadecimal digit. -/
theorem nibble?_eq_none_iff (b : UInt8) : nibble? b = none ↔ ¬ IsHexDigit b := by
  have hdigits : hexDigits.all (fun c => (nibble? c.toUInt8).isSome) = true := by decide
  constructor
  · intro h hb
    have hback : (Char.ofUInt8 b).toUInt8 = b := UInt8.toUInt8_toUInt32 b
    have hsome := List.all_eq_true.mp hdigits _ hb
    rw [hback, h] at hsome
    cases hsome
  · intro h
    cases hn : nibble? b with
    | none => rfl
    | some n => exact absurd (digit_of_nibble? hn).1 h

/-! ## Pairs of digits -/

/-- The byte at position `n` is the first that is no digit. -/
structure IsFirstFault (bs : List UInt8) (b : UInt8) (n : Nat) : Prop where
  at_position : bs[n]? = some b
  not_digit : ¬ IsHexDigit b
  first : ∀ k < n, ∀ a, bs[k]? = some a → IsHexDigit a

/-- There is one first fault at most. -/
theorem IsFirstFault.unique {bs : List UInt8} {a b : UInt8} {m n : Nat}
    (ha : IsFirstFault bs a m) (hb : IsFirstFault bs b n) : a = b ∧ m = n := by
  rcases Nat.lt_trichotomy m n with hlt | rfl | hlt
  · exact absurd (hb.first m hlt a ha.at_position) ha.not_digit
  · exact ⟨Option.some.inj (ha.at_position.symm.trans hb.at_position), rfl⟩
  · exact absurd (ha.first n hlt b hb.at_position) hb.not_digit

/-- A byte at the beginning that is no digit is the first fault. -/
theorem isFirstFault_head {b : UInt8} (bs : List UInt8) (h : ¬ IsHexDigit b) :
    IsFirstFault (b :: bs) b 0 :=
  ⟨rfl, h, fun _ hk => absurd hk (Nat.not_lt_zero _)⟩

/-- A digit in front moves the first fault by one place. -/
theorem IsFirstFault.cons {bs : List UInt8} {a b : UInt8} {n : Nat} (ha : IsHexDigit a)
    (h : IsFirstFault bs b n) : IsFirstFault (a :: bs) b (n + 1) := by
  refine ⟨h.at_position, h.not_digit, fun k hk c hc => ?_⟩
  cases k with
  | zero => exact Option.some.inj hc ▸ ha
  | succ k => exact h.first k (Nat.lt_of_succ_lt_succ hk) c hc

/-- What two digits are read as is printed as these digits. -/
theorem byteChars_ofNat {h l : Nat} (hh : h < 16) (hl : l < 16) :
    byteChars (UInt8.ofNat (16 * h + l)) = [Quoted.hexDigit h, Quoted.hexDigit l] := by
  have hvalue : (UInt8.ofNat (16 * h + l)).toNat = 16 * h + l := by
    rw [UInt8.toNat_ofNat']
    omega
  have hhigh : (16 * h + l) / 16 = h := by omega
  have hlow : (16 * h + l) % 16 = l := by omega
  rw [byteChars, hvalue, hhigh, hlow]

/-- An even number of bytes is read if all of them are digits, and what has been
read is printed as these digits in lower case. Otherwise the first byte that is no
digit is named. -/
theorem readPairs_cases : ∀ (i : Nat) (bs : List UInt8), bs.length % 2 = 0 →
    (∃ ds, readPairs i bs = .ok ds ∧ (∀ b ∈ bs, IsHexDigit b)
      ∧ ds.flatMap byteChars = bs.map fun b => (Char.ofUInt8 b).toLower)
    ∨ ∃ b n, readPairs i bs = .error (.invalidDigit b (i + n)) ∧ IsFirstFault bs b n
  | _, [], _ => .inl ⟨[], rfl, List.forall_mem_nil _, rfl⟩
  | _, [_], heven => absurd heven (by simp)
  | i, a :: b :: rest, heven => by
    cases ha : nibble? a with
    | none =>
      refine .inr ⟨a, 0, ?_, isFirstFault_head _ ((nibble?_eq_none_iff a).mp ha)⟩
      simp only [readPairs, ha, Nat.add_zero]
    | some h =>
      obtain ⟨hdigit, hlt, hprinted⟩ := digit_of_nibble? ha
      cases hb : nibble? b with
      | none =>
        refine .inr ⟨b, 1, ?_, (isFirstFault_head _ ((nibble?_eq_none_iff b).mp hb)).cons hdigit⟩
        simp only [readPairs, ha, hb]
      | some l =>
        obtain ⟨hdigit', hlt', hprinted'⟩ := digit_of_nibble? hb
        have hrest : rest.length % 2 = 0 := by
          rw [List.length_cons, List.length_cons] at heven
          omega
        rcases readPairs_cases (i + 2) rest hrest with ⟨ds, hread, hall, hchars⟩ | ⟨c, n, hread, hc⟩
        · refine .inl ⟨UInt8.ofNat (16 * h + l) :: ds, ?_, ?_, ?_⟩
          · simp only [readPairs, ha, hb, hread]
          · exact List.forall_mem_cons.mpr ⟨hdigit, List.forall_mem_cons.mpr ⟨hdigit', hall⟩⟩
          · rw [List.flatMap_cons, byteChars_ofNat hlt hlt', hchars, hprinted, hprinted']
            rfl
        · refine .inr ⟨c, n + 2, ?_, (hc.cons hdigit').cons hdigit⟩
          simp only [readPairs, ha, hb, hread, Nat.add_assoc, Nat.add_comm 2 n]

/-- Printed digits are read back. -/
theorem readPairs_printed (i : Nat) (ds : List UInt8) :
    readPairs i ((ds.flatMap byteChars).map Char.toUInt8) = .ok ds := by
  induction ds generalizing i with
  | nil => rfl
  | cons d ds ih =>
    have hd := d.toNat_lt
    have hhigh := (nibble?_hexDigit (d.toNat / 16) (by omega)).2
    have hlow := (nibble?_hexDigit (d.toNat % 16) (by omega)).2
    have hvalue : 16 * (d.toNat / 16) + d.toNat % 16 = d.toNat := by omega
    simp only [List.flatMap_cons, byteChars, List.cons_append, List.nil_append, List.map_cons,
      readPairs, hhigh, hlow, ih, hvalue, UInt8.ofNat_toNat]

/-! ## Whole texts -/

theorem length_flatMap_byteChars (ds : List UInt8) :
    (ds.flatMap byteChars).length = 2 * ds.length := by
  induction ds with
  | nil => rfl
  | cons d ds ih =>
    rw [List.flatMap_cons, List.length_append, ih, List.length_cons]
    have hpair : (byteChars d).length = 2 := rfl
    omega

/-- Every byte is two digits, so the digits of the first bytes are the first
digits, twice as many. -/
theorem take_flatMap_byteChars (ds : List UInt8) (n : Nat) :
    (ds.take n).flatMap byteChars = (ds.flatMap byteChars).take (2 * n) := by
  induction ds generalizing n with
  | nil => rw [List.take_nil, List.flatMap_nil, List.take_nil]
  | cons d ds ih =>
    cases n with
    | zero => rfl
    | succ n =>
      have hpair : 2 * (n + 1) = (byteChars d).length + 2 * n := by
        show 2 * (n + 1) = 2 + 2 * n
        omega
      rw [List.take_succ_cons, List.flatMap_cons, List.flatMap_cons, hpair,
        List.take_length_add_append, ih]

/-- The short form is the beginning of the text. -/
theorem toList_short (d : Digest) : d.short.toList = d.text.toList.take 16 := by
  rw [short, text, chars, String.toList_ofList, String.toList_ofList, take_flatMap_byteChars]

/-- A digest is printed in digits of lower case. -/
theorem mem_lowerDigits_of_mem_chars {d : Digest} {c : Char} (hc : c ∈ d.chars) :
    c ∈ lowerDigits := by
  obtain ⟨b, -, hc⟩ := List.mem_flatMap.mp hc
  have hb := b.toNat_lt
  simp only [byteChars, List.mem_cons, List.not_mem_nil, or_false] at hc
  rcases hc with rfl | rfl
  · exact (nibble?_hexDigit _ (by omega)).1
  · exact (nibble?_hexDigit _ (by omega)).1

/-- The text of a digest has 64 digits. -/
theorem length_chars (d : Digest) : d.chars.length = 64 := by
  rw [chars, length_flatMap_byteChars, d.length_bytes]

/-- Hexadecimal digits are below 128. -/
theorem plain_of_mem_hexDigits {c : Char} (hc : c ∈ hexDigits) : c.toNat < 128 := by
  have hdigits : hexDigits.all (fun c => c.toNat < 128) = true := by decide
  exact of_decide_eq_true (List.all_eq_true.mp hdigits c hc)

/-- A digest is read back from its text. -/
theorem parse_text (d : Digest) : parse d.text = .ok d := by
  have hplain : ∀ c ∈ d.text.toList, c.toNat < 128 := by
    rw [text, String.toList_ofList]
    exact fun c hc => plain_of_mem_hexDigits
      (List.mem_append_left _ (mem_lowerDigits_of_mem_chars hc))
  have hbytes : ofText d.text = d.chars.map Char.toUInt8 := by
    rw [Bytes.ofText_of_plain hplain, text, String.toList_ofList]
  have hread : readPairs 0 (d.chars.map Char.toUInt8) = .ok d.bytes := readPairs_printed 0 d.bytes
  have heven : ¬ (d.chars.map Char.toUInt8).length % 2 = 1 := by
    rw [List.length_map, length_chars]
    decide
  rw [parse, hbytes, readBytes, if_neg heven, hread]
  exact dif_pos d.length_bytes

/-- Why bytes are no digest. A fault counts only if none of those before it is there. -/
inductive Refuses (bs : List UInt8) : ParseError → Prop
  /-- The number of bytes is odd. -/
  | oddLength (hodd : bs.length % 2 = 1) : Refuses bs .oddLength
  /-- A byte is no digit, and none of those in front of it is at fault. -/
  | invalidDigit {b : UInt8} {n : Nat} (heven : bs.length % 2 = 0) (hb : IsFirstFault bs b n) :
    Refuses bs (.invalidDigit b n)
  /-- There are digits only, but too few or too many of them. -/
  | invalidLength (heven : bs.length % 2 = 0) (hall : ∀ b ∈ bs, IsHexDigit b)
      (hlength : bs.length ≠ 64) :
    Refuses bs (.invalidLength (bs.length / 2))

/-- The bytes are those of 64 hexadecimal digits. -/
def IsSpelling (bs : List UInt8) : Prop := bs.length = 64 ∧ ∀ b ∈ bs, IsHexDigit b

/-- Where there is a fault, not all bytes are digits. -/
theorem IsFirstFault.not_all {bs : List UInt8} {b : UInt8} {n : Nat} (h : IsFirstFault bs b n) :
    ¬ ∀ b ∈ bs, IsHexDigit b :=
  fun hall => h.not_digit (hall b (List.mem_of_getElem? h.at_position))

/-- There is only one reason to refuse a text. -/
theorem Refuses.unique {bs : List UInt8} {e e' : ParseError} (h : Refuses bs e)
    (h' : Refuses bs e') : e = e' := by
  cases h with
  | oddLength hodd =>
    cases h' with
    | oddLength => rfl
    | invalidDigit heven => omega
    | invalidLength heven => omega
  | invalidDigit heven hb =>
    cases h' with
    | oddLength hodd => omega
    | invalidDigit _ hb' =>
      obtain ⟨rfl, rfl⟩ := hb.unique hb'
      rfl
    | invalidLength _ hall => exact absurd hall hb.not_all
  | invalidLength heven hall =>
    cases h' with
    | oddLength hodd => omega
    | invalidDigit _ hb' => exact absurd hall hb'.not_all
    | invalidLength => rfl

/-- What is refused does not spell a digest. -/
theorem Refuses.not_isSpelling {bs : List UInt8} {e : ParseError} (h : Refuses bs e) :
    ¬ IsSpelling bs := by
  rintro ⟨hlength, hall⟩
  cases h with
  | oddLength hodd => omega
  | invalidDigit _ hb => exact hb.not_all hall
  | invalidLength _ _ hne => exact hne hlength

/-- Bytes are read as a digest that is printed as their lower case, or refused. -/
theorem readBytes_cases (bs : List UInt8) :
    (∃ d, readBytes bs = .ok d ∧ IsSpelling bs
      ∧ d.chars = bs.map fun b => (Char.ofUInt8 b).toLower)
    ∨ ∃ e, readBytes bs = .error e ∧ Refuses bs e := by
  rw [readBytes]
  by_cases hodd : bs.length % 2 = 1
  · exact .inr ⟨.oddLength, if_pos hodd, .oddLength hodd⟩
  · have heven : bs.length % 2 = 0 := by omega
    rw [if_neg hodd]
    rcases readPairs_cases 0 bs heven with ⟨ds, hread, hall, hchars⟩ | ⟨b, n, hread, hb⟩
    · have hlength : 2 * ds.length = bs.length := by
        rw [← length_flatMap_byteChars, hchars, List.length_map]
      simp only [hread]
      by_cases h : ds.length = 32
      · rw [dif_pos h]
        exact .inl ⟨⟨ds, h⟩, rfl, ⟨by omega, hall⟩, hchars⟩
      · rw [dif_neg h]
        have hhalf : ds.length = bs.length / 2 := by omega
        exact .inr ⟨_, rfl, hhalf ▸ .invalidLength heven hall (by omega)⟩
    · simp only [hread, Nat.zero_add]
      exact .inr ⟨_, rfl, .invalidDigit heven hb⟩

/-- Bytes are refused exactly for the reason that the grammar gives. -/
theorem readBytes_eq_error_iff (bs : List UInt8) (e : ParseError) :
    readBytes bs = .error e ↔ Refuses bs e := by
  rcases readBytes_cases bs with ⟨d, hread, hspelling, -⟩ | ⟨e', hread, hrefuses⟩
  · rw [hread]
    exact ⟨nofun, fun h => absurd hspelling h.not_isSpelling⟩
  · rw [hread, Except.error.injEq]
    exact ⟨fun h => h ▸ hrefuses, hrefuses.unique⟩

/-- A character below 128 is found again from its byte. -/
theorem ofUInt8_toUInt8_of_plain {c : Char} (h : c.toNat < 128) : Char.ofUInt8 c.toUInt8 = c := by
  have hval : c.toNat = c.val.toNat := rfl
  refine Char.ext (UInt32.toNat_inj.mp ?_)
  change c.val.toUInt8.toUInt32.toNat = c.val.toNat
  rw [UInt8.toNat_toUInt32, UInt32.toNat_toUInt8]
  omega

/-- A text whose bytes are digits has these digits as its characters. -/
theorem toList_of_isSpelling {s : String} (h : IsSpelling (ofText s)) :
    s.toList = (ofText s).map Char.ofUInt8 := by
  have hplain : ∀ c ∈ s.toList, c.toNat < 128 := by
    refine Bytes.plain_of_ofText fun b hb => ?_
    have hdigit := plain_of_mem_hexDigits (h.2 b hb)
    change b.toUInt32.toNat < 128 at hdigit
    rwa [UInt8.toNat_toUInt32] at hdigit
  rw [Bytes.ofText_of_plain hplain, List.map_map]
  conv_lhs => rw [← List.map_id s.toList]
  exact List.map_congr_left fun c hc => (ofUInt8_toUInt8_of_plain (hplain c hc)).symm

/-- Different digests have different texts. -/
theorem text_injective {d d' : Digest} (h : d.text = d'.text) : d = d' := by
  have hd := parse_text d
  rw [h, parse_text] at hd
  exact (Except.ok.inj hd).symm

/-- What has been read is printed as the text in lower case, so no other digest is
read from it. -/
theorem parse_eq_ok_iff (s : String) (d : Digest) :
    parse s = .ok d ↔ IsSpelling (ofText s) ∧ d.text = s.toLower := by
  have hlower : ∀ d : Digest, IsSpelling (ofText s) →
      d.chars = (ofText s).map (fun b => (Char.ofUInt8 b).toLower) → d.text = s.toLower := by
    intro d hspelling hchars
    have htoLower : s.toLower.toList = s.toList.map Char.toLower := String.toList_map
    refine String.toList_injective ?_
    rw [text, String.toList_ofList, hchars, htoLower, toList_of_isSpelling hspelling,
      List.map_map]
    rfl
  rcases readBytes_cases (ofText s) with ⟨d', hread, hspelling, hchars⟩ | ⟨e, hread, hrefuses⟩
  · have htext := hlower d' hspelling hchars
    rw [parse, hread, Except.ok.injEq]
    constructor
    · rintro rfl
      exact ⟨hspelling, htext⟩
    · exact fun h => text_injective (htext.trans h.2.symm)
  · rw [parse, hread]
    constructor
    · intro h
      cases h
    · exact fun h => absurd h.1 hrefuses.not_isSpelling

/-- Every digest is printed as 64 digits in lower case, which are read back, and its
short form is the first sixteen of them. A text is read exactly if its bytes are 64
digits of either case, and what has been read is printed as the text in lower case.
Every other text is refused: for an odd number of bytes, else for the first byte that
is no digit, else for its length. -/
theorem texts_of_digests :
    (∀ d, parse d.text = .ok d)
    ∧ (∀ d : Digest, d.text.toList.length = 64 ∧ (∀ c ∈ d.text.toList, c ∈ lowerDigits)
      ∧ d.short.toList = d.text.toList.take 16)
    ∧ (∀ s, (∃ d, parse s = .ok d) ↔ IsSpelling (ofText s))
    ∧ (∀ s d, parse s = .ok d ↔ IsSpelling (ofText s) ∧ d.text = s.toLower)
    ∧ (∀ s e, parse s = .error e ↔ Refuses (ofText s) e)
    ∧ (ParseError.oddLength.name = "HexDecode"
      ∧ ParseError.oddLength.message = "hex decode error: Odd number of digits")
    ∧ (∀ b i, (ParseError.invalidDigit b i).name = "HexDecode"
      ∧ (ParseError.invalidDigit b i).message = "hex decode error: Invalid character "
        ++ String.ofList (Quoted.char (Char.ofNat b.toNat)) ++ " at position " ++ Decimal.text i)
    ∧ ∀ n, (ParseError.invalidLength n).name = "InvalidLength"
      ∧ (ParseError.invalidLength n).message
        = "invalid digest length: expected 32, got " ++ Decimal.text n := by
  refine ⟨parse_text, fun d => ?_, fun s => ?_, parse_eq_ok_iff,
    fun s => readBytes_eq_error_iff (ofText s), ⟨rfl, rfl⟩, fun _ _ => ⟨rfl, rfl⟩,
    fun _ => ⟨rfl, rfl⟩⟩
  · rw [toList_short, text, String.toList_ofList]
    exact ⟨d.length_chars, fun c hc => mem_lowerDigits_of_mem_chars hc, rfl⟩
  · rcases readBytes_cases (ofText s) with ⟨d, hread, hspelling, -⟩ | ⟨e, hread, hrefuses⟩
    · exact ⟨fun _ => hspelling, fun _ => ⟨d, hread⟩⟩
    · refine ⟨?_, fun h => absurd h hrefuses.not_isSpelling⟩
      rintro ⟨d, hd⟩
      rw [parse, hread] at hd
      cases hd

example : parse "0é" = .error .oddLength := rfl

example : parse "0géé" = .error (.invalidDigit 103 1) := rfl

end Digest

end LoadTest
