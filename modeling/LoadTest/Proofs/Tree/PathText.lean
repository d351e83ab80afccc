/-
The texts of paths.

A text spells a path if it is a slash, or segments with a slash in front of each,
where a segment is a run of digits behind at most one plus sign. Reading accepts
exactly these texts. Every other text is refused for its first fault: the missing
slash, or else the leftmost segment that denotes no index.

The grammar (`Path.Spells`) speaks of segments that are put together, the reader
of a text that is taken apart at its slashes. The two meet in `segments_append`
and `joined_segments`: pieces without a slash are got back from what they make
up, and every text is made up of its pieces.

Printing gives the one canonical spelling. That no other spelling does without
plus signs and without zeros in front is a fact about digits
(`Decimal.digits_value`).
-/
import LoadTest.Tree.Path.Text
import Mathlib.Data.List.Forall2
import Mathlib.Data.List.Induction

set_option autoImplicit false

namespace LoadTest

/-! ## Digits -/

namespace Decimal

theorem digitValue_lt {c : Char} (h : isDigit c = true) : digitValue c < 10 := by
  simp only [isDigit, Bool.and_eq_true, decide_eq_true_eq] at h
  have hhigh : c.toNat ≤ '9'.toNat := h.2
  have hnine : '9'.toNat = 57 := rfl
  have hzero : '0'.toNat = 48 := rfl
  unfold digitValue
  omega

/-- A digit is written again as the digit that it is. -/
theorem digitChar_digitValue {c : Char} (h : isDigit c = true) : digitChar (digitValue c) = c := by
  simp only [isDigit, Bool.and_eq_true, decide_eq_true_eq] at h
  have hlow : '0'.toNat ≤ c.toNat := h.1
  have hback : '0'.toNat + (c.toNat - '0'.toNat) = c.toNat := by omega
  rw [digitChar, digitValue, hback, Char.ofNat_toNat]

/-- A run of digits with a zero in front only if it is that zero. -/
def IsCanonical (ds : List Char) : Prop :=
  ds ≠ [] ∧ (∀ c ∈ ds, isDigit c = true) ∧ (ds.head? = some '0' → ds = ['0'])

/-- Canonical digits are the written form of their value. -/
theorem digits_value {ds : List Char} (h : IsCanonical ds) : digits (value ds) = ds := by
  obtain ⟨hne, hall, hzero⟩ := h
  -- the last digit is the remainder, and the digits before it have no zero in front either
  induction ds using List.reverseRecOn with
  | nil => exact absurd rfl hne
  | append_singleton ds c ih =>
    have hc : isDigit c = true := hall c (by simp)
    have hlt := digitValue_lt hc
    rw [value_append_singleton]
    by_cases hnil : ds = []
    · subst hnil
      have hvalue : value [] * 10 + digitValue c = digitValue c := by simp [value]
      rw [hvalue, digits_of_lt hlt, digitChar_digitValue hc, List.nil_append]
    · have hhead : ds.head? ≠ some '0' := by
        intro h
        have hlong := congrArg List.length (hzero (by rw [List.head?_append_of_ne_nil _ hnil, h]))
        have hpos := List.length_pos_iff.mpr hnil
        simp only [List.length_append, List.length_singleton] at hlong
        omega
      have hfront := ih hnil (fun d hd => hall d (by simp [hd])) fun h => absurd h hhead
      have hpos : value ds ≠ 0 := by
        intro h
        rw [h, digits_of_lt (by omega)] at hfront
        exact hhead (by rw [← hfront]; rfl)
      have hdiv : (value ds * 10 + digitValue c) / 10 = value ds := by omega
      have hmod : (value ds * 10 + digitValue c) % 10 = digitValue c := by omega
      rw [digits_of_ge (by omega), hdiv, hmod, hfront, digitChar_digitValue hc]

/-- The digits of a number are canonical: the first of them is no zero unless it is the
only one. -/
theorem isCanonical_digits (n : Nat) : IsCanonical (digits n) := by
  refine ⟨digits_ne_nil n, fun c hc => isDigit_of_mem_digits hc, ?_⟩
  induction n using Nat.strongRecOn with
  | ind n ih =>
    intro hzero
    by_cases hn : n < 10
    · rw [digits_of_lt hn, List.head?_cons, Option.some_inj] at hzero
      rw [digits_of_lt hn, hzero]
    · -- the front would be a lone zero, but it stands for a tenth of the number
      rw [digits_of_ge hn, List.head?_append_of_ne_nil _ (digits_ne_nil _)] at hzero
      have hvalue := value_digits (n / 10)
      rw [ih (n / 10) (by omega) hzero] at hvalue
      have hlone : value ['0'] = 0 := rfl
      omega

end Decimal

namespace Path

open Decimal

/-! ## Spellings -/

/-- The segment denotes the index: digits behind at most one plus sign. -/
def Denotes (s : List Char) (i : Nat) : Prop :=
  ∃ ds, (s = ds ∨ s = '+' :: ds) ∧ ds ≠ [] ∧ (∀ c ∈ ds, isDigit c = true) ∧ value ds = i
    ∧ i < UInt64.size

/-- Segments with a slash in front of each. -/
def joined (ss : List (List Char)) : List Char := ss.flatMap fun s => '/' :: s

/-- The text is a slash for the root, or joined segments that stand for the
indexes one by one. -/
def SpellsBy (denotes : List Char → Nat → Prop) (cs : List Char) (p : Path) : Prop :=
  (cs = ['/'] ∧ p = root) ∨ ∃ ss, ss ≠ [] ∧ cs = joined ss ∧ List.Forall₂ denotes ss p

/-- The text spells the path. -/
def Spells : List Char → Path → Prop := SpellsBy Denotes

/-- The text spells the path without plus signs and without zeros in front. -/
def SpellsCanonically : List Char → Path → Prop :=
  SpellsBy fun ds i => IsCanonical ds ∧ value ds = i

/-- What is wrong with a segment that denotes no index. -/
def fault (s : List Char) : ParseError :=
  if s = [] then .emptySegment else .invalidSegment (String.ofList s)

/-- The segments of the text from the left are such that denote an index, up to
one that does not. -/
def FirstBad (cs bad : List Char) : Prop :=
  ∃ front back, cs = joined (front ++ bad :: back)
    ∧ (∀ s ∈ front ++ bad :: back, '/' ∉ s)
    ∧ (∀ s ∈ front, ∃ i, Denotes s i) ∧ ¬ ∃ i, Denotes bad i

@[simp] theorem joined_nil : joined [] = [] := rfl

@[simp] theorem joined_cons (s : List Char) (ss : List (List Char)) :
    joined (s :: ss) = '/' :: (s ++ joined ss) := rfl

/-! ## Taking a text apart -/

theorem segments_of_free {s : List Char} (hs : '/' ∉ s) : segments s = [s] := by
  induction s with
  | nil => rfl
  | cons c s ih =>
    simp only [List.mem_cons, not_or] at hs
    simp only [segments, if_neg (Ne.symm hs.1), ih hs.2]

/-- The first segment ends at the first slash. -/
theorem segments_slash {s : List Char} (hs : '/' ∉ s) (cs : List Char) :
    segments (s ++ '/' :: cs) = s :: segments cs := by
  induction s with
  | nil => simp [segments]
  | cons c s ih =>
    simp only [List.mem_cons, not_or] at hs
    simp only [List.cons_append, segments, if_neg (Ne.symm hs.1), ih hs.2]

/-- Pieces without a slash are got back from what they make up. -/
theorem segments_append {s : List Char} {ss : List (List Char)} (h : ∀ t ∈ s :: ss, '/' ∉ t) :
    segments (s ++ joined ss) = s :: ss := by
  induction ss generalizing s with
  | nil =>
    rw [joined_nil, List.append_nil]
    exact segments_of_free (h s List.mem_cons_self)
  | cons t ss ih =>
    rw [List.forall_mem_cons] at h
    rw [joined_cons, segments_slash h.1, ih h.2]

/-- Every text is made up of its pieces. -/
theorem joined_segments (cs : List Char) :
    joined (segments cs) = '/' :: cs ∧ segments cs ≠ [] ∧ ∀ s ∈ segments cs, '/' ∉ s := by
  induction cs with
  | nil => exact ⟨rfl, by simp [segments], by simp [segments]⟩
  | cons c cs ih =>
    obtain ⟨hjoined, hne, hfree⟩ := ih
    by_cases hc : c = '/'
    · simp only [segments, if_pos hc]
      exact ⟨by rw [joined_cons, hjoined, hc, List.nil_append], by simp, by simpa using hfree⟩
    · obtain ⟨s, ss, hs⟩ := List.exists_cons_of_ne_nil hne
      simp only [segments, if_neg hc, hs]
      rw [hs, joined_cons, List.cons.injEq] at hjoined
      simp only [hs, List.forall_mem_cons] at hfree
      have hslash : '/' ∉ c :: s := by simpa [Ne.symm hc] using hfree.1
      refine ⟨by rw [joined_cons, List.cons_append, hjoined.2], by simp, ?_⟩
      exact List.forall_mem_cons.mpr ⟨hslash, hfree.2⟩

/-! ## Reading segments -/

/-- Digits are an index if there are any and their value fits the range of an index.
Zeros in front are allowed. -/
theorem digitsIndex?_eq_some_iff (ds : List Char) (i : Nat) : digitsIndex? ds = some i ↔
    ds ≠ [] ∧ (∀ c ∈ ds, isDigit c = true) ∧ value ds = i ∧ i < UInt64.size := by
  unfold digitsIndex?
  split
  · next h =>
    simp only [Option.some.injEq]
    constructor
    · rintro rfl
      exact ⟨h.1, List.all_eq_true.mp h.2.1, rfl, h.2.2⟩
    · exact fun h => h.2.2.1
  · next h =>
    constructor
    · exact fun h => nomatch h
    · rintro ⟨hne, hall, rfl, hlt⟩
      exact absurd ⟨hne, List.all_eq_true.mpr hall, hlt⟩ h

/-- A segment is read as an index exactly if it denotes it. -/
theorem segmentIndex?_eq_some_iff (s : List Char) (i : Nat) :
    segmentIndex? s = some i ↔ Denotes s i := by
  unfold segmentIndex?
  split
  · next ds =>
    rw [digitsIndex?_eq_some_iff]
    constructor
    · exact fun h => ⟨ds, .inr rfl, h⟩
    · rintro ⟨ds', rfl | heq, h⟩
      · -- the plus sign is no digit
        exact absurd (h.2.1 '+' List.mem_cons_self) (by decide)
      · rw [(List.cons.inj heq).2]
        exact h
  · next hplus =>
    rw [digitsIndex?_eq_some_iff]
    constructor
    · exact fun h => ⟨s, .inl rfl, h⟩
    · rintro ⟨ds, rfl | heq, h⟩
      · exact h
      · exact absurd heq (hplus ds)

/-- A segment is accepted exactly if it denotes an index. -/
theorem readSegment_eq_ok_iff (s : List Char) (i : Nat) :
    readSegment s = .ok i ↔ Denotes s i := by
  rw [← segmentIndex?_eq_some_iff, readSegment]
  by_cases hs : s = []
  · subst hs
    simp [segmentIndex?, digitsIndex?]
  · rw [if_neg hs]
    cases segmentIndex? s with
    | none => simp
    | some j => simp

/-- A segment is refused exactly if it denotes no index, and the error tells it apart
from an empty one. -/
theorem readSegment_eq_error_iff (s : List Char) (e : ParseError) :
    readSegment s = .error e ↔ (¬ ∃ i, Denotes s i) ∧ e = fault s := by
  simp only [← segmentIndex?_eq_some_iff, readSegment, fault]
  by_cases hs : s = []
  · subst hs
    simp [segmentIndex?, digitsIndex?, eq_comm]
  · rw [if_neg hs, if_neg hs]
    cases segmentIndex? s with
    | none => simp [eq_comm]
    | some j => simp

/-- Segments are accepted exactly if each denotes an index of the path. -/
theorem readSegments_eq_ok_iff (ss : List (List Char)) (p : Path) :
    readSegments ss = .ok p ↔ List.Forall₂ Denotes ss p := by
  induction ss generalizing p with
  | nil => simp [readSegments, eq_comm]
  | cons s ss ih =>
    rw [List.forall₂_cons_left_iff]
    simp only [readSegments, ← readSegment_eq_ok_iff, ← ih]
    cases readSegment s with
    | error e => simp
    | ok i =>
      cases readSegments ss with
      | error e => simp
      | ok q => simp [eq_comm]

/-- The first segment that denotes no index decides. -/
theorem readSegments_eq_error_iff (ss : List (List Char)) (e : ParseError) :
    readSegments ss = .error e ↔ ∃ front bad back, ss = front ++ bad :: back
      ∧ (∀ s ∈ front, ∃ i, Denotes s i) ∧ (¬ ∃ i, Denotes bad i) ∧ e = fault bad := by
  induction ss with
  | nil => simp [readSegments]
  | cons s ss ih =>
    simp only [List.cons_eq_append_iff]
    cases hs : readSegment s with
    | error e' =>
      obtain ⟨hbad, rfl⟩ := (readSegment_eq_error_iff s e').mp hs
      simp only [readSegments, hs, Except.error.injEq]
      constructor
      · rintro rfl
        exact ⟨[], s, ss, .inl ⟨rfl, rfl⟩, by simp, hbad, rfl⟩
      · rintro ⟨front, bad, back, ⟨rfl, heq⟩ | ⟨front, rfl, -⟩, hfront, -, rfl⟩
        · rw [(List.cons.inj heq).1]
        · exact absurd (hfront s List.mem_cons_self) hbad
    | ok i =>
      have hi := (readSegment_eq_ok_iff s i).mp hs
      have hrest : readSegments (s :: ss) = .error e ↔ readSegments ss = .error e := by
        simp only [readSegments, hs]
        cases readSegments ss with
        | error e' => simp
        | ok q => simp
      rw [hrest, ih]
      constructor
      · rintro ⟨front, bad, back, rfl, hfront, hbad⟩
        exact ⟨s :: front, bad, back, .inr ⟨front, rfl, rfl⟩,
          List.forall_mem_cons.mpr ⟨⟨i, hi⟩, hfront⟩, hbad⟩
      · rintro ⟨front, bad, back, ⟨rfl, heq⟩ | ⟨front, rfl, rfl⟩, hfront, hbad⟩
        · rw [(List.cons.inj heq).1] at hbad
          exact absurd ⟨i, hi⟩ hbad.1
        · exact ⟨front, bad, back, rfl, (List.forall_mem_cons.mp hfront).2, hbad⟩

/-! ## Reading texts -/

/-- No slash hides in a segment that denotes an index. -/
theorem slash_not_mem_of_denotes {s : List Char} {i : Nat} (h : Denotes s i) : '/' ∉ s := by
  obtain ⟨ds, rfl | rfl, -, hall, -⟩ := h
  · exact fun hmem => absurd (hall '/' hmem) (by decide)
  · intro hmem
    rcases List.mem_cons.mp hmem with heq | hmem
    · exact absurd heq (by decide)
    · exact absurd (hall '/' hmem) (by decide)

/-- Behind the leading slash, the text is read by its segments. -/
theorem readChars_slash {cs : List Char} (h : cs ≠ []) :
    readChars ('/' :: cs) = readSegments (segments cs) := by
  cases cs with
  | nil => exact absurd rfl h
  | cons c cs => rfl

/-- Joined segments are read one by one; a lone empty segment stands for the root. -/
theorem readChars_joined {ss : List (List Char)} (hne : ss ≠ []) (hroot : ss ≠ [[]])
    (hfree : ∀ s ∈ ss, '/' ∉ s) : readChars (joined ss) = readSegments ss := by
  obtain ⟨s, ss, rfl⟩ := List.exists_cons_of_ne_nil hne
  rw [joined_cons, readChars_slash, segments_append hfree]
  intro hnil
  simp only [List.append_eq_nil_iff] at hnil
  obtain ⟨rfl, hss⟩ := hnil
  cases ss with
  | nil => exact hroot rfl
  | cons t ss => cases hss

/-- A text is accepted exactly if it spells the path. -/
theorem readChars_eq_ok_iff (cs : List Char) (p : Path) : readChars cs = .ok p ↔ Spells cs p := by
  constructor
  · intro h
    unfold readChars at h
    split at h
    · exact .inl ⟨rfl, (Except.ok.inj h).symm⟩
    · next rest _ =>
      obtain ⟨hjoined, hne, -⟩ := joined_segments rest
      exact .inr ⟨segments rest, hne, hjoined.symm, (readSegments_eq_ok_iff _ p).mp h⟩
    · cases h
  · rintro (⟨rfl, rfl⟩ | ⟨ss, hne, rfl, h⟩)
    · rfl
    · have hall : ∀ s ∈ ss, ∃ i, Denotes s i :=
        ((List.forall₂_and_left _ _).mp (h.imp fun _ i hi => ⟨⟨i, hi⟩, hi⟩)).1
      rw [readChars_joined hne, readSegments_eq_ok_iff]
      · exact h
      · rintro rfl
        obtain ⟨i, ds, rfl | hds, hnil, -⟩ := hall [] List.mem_cons_self
        · exact hnil rfl
        · cases hds
      · intro s hs
        obtain ⟨i, hi⟩ := hall s hs
        exact slash_not_mem_of_denotes hi

/-- A text is refused because it does not begin with a slash, or because of the first
segment that denotes no index. -/
theorem readChars_eq_error_iff (cs : List Char) (e : ParseError) : readChars cs = .error e ↔
    (cs.head? ≠ some '/' ∧ e = .notAbsolute)
      ∨ (cs ≠ ['/'] ∧ ∃ bad, FirstBad cs bad ∧ e = fault bad) := by
  constructor
  · intro h
    unfold readChars at h
    split at h
    · cases h
    · next rest hrest =>
      obtain ⟨hjoined, -, hfree⟩ := joined_segments rest
      obtain ⟨front, bad, back, hsplit, hfront, hbad, he⟩ :=
        (readSegments_eq_error_iff _ e).mp h
      rw [hsplit] at hjoined hfree
      refine .inr ⟨?_, bad, ⟨front, back, hjoined.symm, hfree, hfront, hbad⟩, he⟩
      simpa using hrest
    · next hroot hslash =>
      refine .inl ⟨?_, (Except.error.inj h).symm⟩
      intro hhead
      obtain ⟨rest, rfl⟩ := List.head?_eq_some_iff.mp hhead
      exact hslash rest rfl
  · rintro (⟨hhead, rfl⟩ | ⟨hroot, bad, ⟨front, back, rfl, hfree, hfront, hbad⟩, rfl⟩)
    · unfold readChars
      split
      · exact absurd rfl hhead
      · exact absurd rfl hhead
      · rfl
    · rw [readChars_joined (by simp) _ hfree, readSegments_eq_error_iff]
      · exact ⟨front, bad, back, rfl, hfront, hbad, rfl⟩
      · intro h
        rw [h] at hroot
        exact hroot rfl

/-! ## Printing -/

theorem chars_cons (i : Nat) (p : Path) : chars (i :: p) = joined ((i :: p).map digits) := by
  simp only [chars, joined, List.flatMap_map]

/-- A path other than the root is written with a slash in front of each index. -/
theorem chars_eq_joined {p : Path} (h : p ≠ root) : chars p = joined (p.map digits) := by
  cases p with
  | nil => exact absurd rfl h
  | cons i p => exact chars_cons i p

/-- The digits of a number denote it, provided that it fits the range of an index. -/
theorem digits_denote_iff (i : Nat) : Denotes (digits i) i ↔ i < UInt64.size := by
  constructor
  · rintro ⟨ds, -, -, -, -, h⟩
    exact h
  · intro h
    exact ⟨digits i, .inl rfl, digits_ne_nil i, fun c hc => isDigit_of_mem_digits hc,
      value_digits i, h⟩

/-- Different paths are printed differently, however large their indexes are. -/
theorem chars_injective : Function.Injective chars := by
  have hdigits : Function.Injective digits := Function.LeftInverse.injective value_digits
  have hfree : ∀ p : Path, ∀ s ∈ p.map digits, '/' ∉ s := by
    intro p s hs hslash
    obtain ⟨i, -, rfl⟩ := List.mem_map.mp hs
    exact absurd (isDigit_of_mem_digits hslash) (by decide)
  intro p q h
  rcases p with _ | ⟨i, p⟩
  · rcases q with _ | ⟨j, q⟩
    · rfl
    · simp [chars, digits_ne_nil] at h
  · rcases q with _ | ⟨j, q⟩
    · simp [chars, digits_ne_nil] at h
    · have hp := segments_append (hfree (i :: p))
      have hq := segments_append (hfree (j :: q))
      rw [chars_cons, chars_cons] at h
      have hrest : digits i ++ joined (p.map digits) = digits j ++ joined (q.map digits) :=
        (List.cons.inj h).2
      have hmap : (i :: p).map digits = (j :: q).map digits := by
        rw [hrest, hq] at hp
        exact hp.symm
      exact List.map_injective_iff.mpr hdigits hmap

/-- The printed form is the only canonical spelling. -/
theorem spellsCanonically_iff (cs : List Char) (p : Path) :
    SpellsCanonically cs p ↔ cs = chars p := by
  have hdigits : ∀ ds i, IsCanonical ds ∧ value ds = i ↔ ds = digits i := by
    intro ds i
    constructor
    · rintro ⟨hds, rfl⟩
      exact (digits_value hds).symm
    · rintro rfl
      exact ⟨isCanonical_digits i, value_digits i⟩
  have hforall : ∀ ss, List.Forall₂ (fun ds i => IsCanonical ds ∧ value ds = i) ss p
      ↔ ss = p.map digits := by
    intro ss
    simp only [hdigits, ← List.forall₂_eq_eq_eq, List.forall₂_map_right_iff]
  simp only [SpellsCanonically, SpellsBy, hforall]
  by_cases hp : p = root
  · subst hp
    simp [root, chars]
  · have hne : p.map digits ≠ [] := by simpa [root] using hp
    rw [chars_eq_joined hp]
    constructor
    · rintro (⟨-, hroot⟩ | ⟨ss, -, hcs, rfl⟩)
      · exact absurd hroot hp
      · exact hcs
    · rintro rfl
      exact .inr ⟨_, hne, rfl, rfl⟩

/-- A path whose indexes fit is read back from its text. -/
theorem parse_text (p : Path) (h : ∀ i ∈ p, i < UInt64.size) : parse p.text = .ok p := by
  rw [parse, text, String.toList_ofList, readChars_eq_ok_iff]
  by_cases hp : p = root
  · subst hp
    exact .inl ⟨rfl, rfl⟩
  · refine .inr ⟨p.map digits, by simpa [root] using hp, chars_eq_joined hp, ?_⟩
    rw [List.forall₂_map_left_iff, List.forall₂_same]
    exact fun i hi => (digits_denote_iff i).mpr (h i hi)

/-- A path is read only if its indexes take 64 bits. -/
theorem lt_of_spells {cs : List Char} {p : Path} (h : Spells cs p) : ∀ i ∈ p, i < UInt64.size := by
  rcases h with ⟨-, rfl⟩ | ⟨ss, -, -, h⟩
  · simp [root]
  · clear * - h
    induction h with
    | nil => simp
    | cons hi _ ih =>
      obtain ⟨ds, -, -, -, -, hlt⟩ := hi
      exact List.forall_mem_cons.mpr ⟨hlt, ih⟩

/-- Every text either spells a path, and is read as that path, or it is refused,
for the missing slash or for the leftmost segment that denotes no index. A path
is printed as its only canonical spelling, and its text is read back, and so is
what a text has been read as. -/
theorem texts_of_paths :
    (∀ p, parse p.text = .ok p ↔ ∀ i ∈ p, i < UInt64.size)
    ∧ Function.Injective text
    ∧ (∀ s p, parse s = .ok p ↔ Spells s.toList p)
    ∧ (∀ s p, s = text p ↔ SpellsCanonically s.toList p)
    ∧ (∀ s, (parse s >>= fun p => parse p.text) = parse s)
    ∧ (∀ s e, parse s = .error e ↔
      (s.toList.head? ≠ some '/' ∧ e = .notAbsolute)
        ∨ (s.toList ≠ ['/'] ∧ ∃ bad, FirstBad s.toList bad ∧ e = fault bad)) := by
  have hok : ∀ s p, parse s = .ok p ↔ Spells s.toList p := fun s => readChars_eq_ok_iff s.toList
  have htext : ∀ s p, s = text p ↔ SpellsCanonically s.toList p := by
    intro s p
    rw [spellsCanonically_iff, text]
    constructor
    · rintro rfl
      exact String.toList_ofList
    · intro h
      rw [← h, String.ofList_toList]
  refine ⟨fun p => ⟨fun h => lt_of_spells ((hok _ _).mp h), parse_text p⟩, ?_, hok, htext, ?_,
    fun s => readChars_eq_error_iff s.toList⟩
  · intro p q h
    exact chars_injective (String.ofList_injective h)
  · intro s
    cases hs : parse s with
    | error e => rfl
    | ok p => exact parse_text p (lt_of_spells ((hok s p).mp hs))

example : parse "/+007/0" = .ok [7, 0] := rfl

example : parse "/1/x//" = .error (.invalidSegment "x") := rfl

end Path

end LoadTest
