/-
The smallest parts of a JSON text: blanks, numbers and quoted texts.

How these parts may be written is said here as a grammar, without the scanners. A
number may have a sign, a fraction and an exponent, and a character of a text may
stand for itself, behind a backslash or as a 16-bit unit. Each scanner is then tied
to its part of the grammar from both sides: it takes off what is spelled, whatever
follows, and what it has taken off is spelled.

A number is taken off as far as it goes, so the first of these asks that the text
does not go on with anything that would prolong it (`Stops`).
-/
import LoadTest.Json.Parser

set_option autoImplicit false

namespace LoadTest

namespace Json

/-! ## Blanks -/

/-- There is nothing but blanks. -/
def Blank (cs : List Char) : Prop := ∀ c ∈ cs, isBlank c = true

theorem blank_nil : Blank [] := fun _ hc => absurd hc List.not_mem_nil

/-- Leading blanks are skipped, however many there are. -/
theorem skipBlanks_append {b : List Char} (hb : Blank b) (cs : List Char) :
    skipBlanks (b ++ cs) = skipBlanks cs :=
  List.dropWhile_append_of_pos hb

theorem skipBlanks_cons {c : Char} (hc : isBlank c = false) (cs : List Char) :
    skipBlanks (c :: cs) = c :: cs := by
  rw [skipBlanks, List.dropWhile_cons_of_neg]
  rw [hc]
  exact Bool.false_ne_true

/-- What is skipped is blank. -/
theorem exists_blank_skipBlanks (cs : List Char) : ∃ b, Blank b ∧ cs = b ++ skipBlanks cs :=
  ⟨cs.takeWhile isBlank, List.all_eq_true.mp List.all_takeWhile,
    (List.takeWhile_append_dropWhile (p := isBlank)).symm⟩

/-- The text does not go on with anything that would prolong a number. -/
def Stops (rest : List Char) : Prop :=
  ∀ c ∈ rest.head?, Decimal.isDigit c = false ∧ c ≠ '.' ∧ c ≠ 'e' ∧ c ≠ 'E'

theorem stops_nil : Stops [] := fun _ hc => nomatch hc

/-- Whether a text prolongs a number in front of it is seen from its first character. -/
theorem stops_cons {c : Char} (hc : Decimal.isDigit c = false ∧ c ≠ '.' ∧ c ≠ 'e' ∧ c ≠ 'E')
    (cs : List Char) : Stops (c :: cs) := by
  rintro _ ⟨⟩
  exact hc

/-- A blank prolongs no number. -/
theorem Stops.append {b rest : List Char} (hb : Blank b) (hrest : Stops rest) :
    Stops (b ++ rest) := by
  rcases b with _ | ⟨c, b⟩
  · exact hrest
  · refine stops_cons ?_ (b ++ rest)
    have hc := hb c List.mem_cons_self
    simp only [isBlank, Bool.or_eq_true, beq_iff_eq] at hc
    rcases hc with ((rfl | rfl) | rfl) | rfl <;> decide

/-! ## Numbers -/

/-- The first character of a number is no other one that has a meaning. -/
theorem ne_of_sign_or_digit {c d : Char} (hc : c = '-' ∨ Decimal.isDigit c = true) (hsign : d ≠ '-')
    (hdigit : Decimal.isDigit d = false) : c ≠ d := by
  rintro rfl
  rcases hc with hc | hc
  · exact hsign hc
  · rw [hdigit] at hc
    cases hc

/-- There is a digit, and there are only digits. -/
def Digits (cs : List Char) : Prop := cs ≠ [] ∧ ∀ c ∈ cs, Decimal.isDigit c = true

namespace Numeral

/-- The text of a fraction: digits behind a point. -/
inductive PartSpelled : Option (List Char) → List Char → Prop where
  | none : PartSpelled none []
  | some {ds : List Char} (hds : Digits ds) : PartSpelled (some ds) ('.' :: ds)

/-- The text of an exponent: a letter of either case, perhaps a sign, and digits. -/
inductive ExponentSpelled : Option (Bool × List Char) → List Char → Prop where
  | none : ExponentSpelled none []
  | plain {e : Char} {ds : List Char} (he : e = 'e' ∨ e = 'E') (hds : Digits ds) :
    ExponentSpelled (some (false, ds)) (e :: ds)
  | plus {e : Char} {ds : List Char} (he : e = 'e' ∨ e = 'E') (hds : Digits ds) :
    ExponentSpelled (some (false, ds)) (e :: '+' :: ds)
  | minus {e : Char} {ds : List Char} (he : e = 'e' ∨ e = 'E') (hds : Digits ds) :
    ExponentSpelled (some (true, ds)) (e :: '-' :: ds)

/-- The text of a number without its sign. A zero stands at its beginning only if
it stands alone before the point. -/
inductive UnsignedSpelled (n : Numeral) : List Char → Prop where
  | mk {ps es : List Char} (hwhole : Digits n.whole)
    (hzero : n.whole.head? = some '0' → n.whole = ['0']) (hpart : PartSpelled n.part ps)
    (hexponent : ExponentSpelled n.exponent es) : UnsignedSpelled n (n.whole ++ (ps ++ es))

/-- The text of a number. -/
inductive Spelled (n : Numeral) : List Char → Prop where
  | positive {cs : List Char} (hn : n.negative = false) (h : n.UnsignedSpelled cs) : Spelled n cs
  | negative {cs : List Char} (hn : n.negative = true) (h : n.UnsignedSpelled cs) :
    Spelled n ('-' :: cs)

/-! ### Digits -/

/-- Digits end where the rest of the text begins, if that begins with none. -/
theorem span_digits {ds rest : List Char} (hds : ∀ c ∈ ds, Decimal.isDigit c = true)
    (hrest : ∀ c ∈ rest.head?, Decimal.isDigit c = false) :
    (ds ++ rest).takeWhile Decimal.isDigit = ds ∧ (ds ++ rest).dropWhile Decimal.isDigit = rest := by
  rw [List.takeWhile_append_of_pos hds, List.dropWhile_append_of_pos hds]
  rcases rest with _ | ⟨c, rest⟩
  · exact ⟨List.append_nil ds, rfl⟩
  · have hc : ¬ Decimal.isDigit c = true := by
      rw [hrest c rfl]
      exact Bool.false_ne_true
    rw [List.takeWhile_cons_of_neg hc, List.dropWhile_cons_of_neg hc, List.append_nil]
    exact ⟨rfl, rfl⟩

theorem isEmpty_of_digits {ds : List Char} (h : Digits ds) : ds.isEmpty = false := by
  simpa using h.1

/-- A digit is no sign. -/
theorem ne_sign_of_digits {c : Char} {ds : List Char} (h : Digits (c :: ds)) :
    c ≠ '+' ∧ c ≠ '-' := by
  have hc := h.2 c List.mem_cons_self
  constructor
  · rintro rfl
    exact absurd hc (by decide)
  · rintro rfl
    exact absurd hc (by decide)

/-! ### What is spelled is scanned -/

/-- A fraction is taken off the text, or nothing if there is none. -/
theorem scanPart_append {p : Option (List Char)} {ps rest : List Char} (h : PartSpelled p ps)
    (hrest : ∀ c ∈ rest.head?, Decimal.isDigit c = false ∧ c ≠ '.') :
    scanPart (ps ++ rest) = some (p, rest) := by
  cases h with
  | none =>
    rw [List.nil_append, scanPart.eq_def]
    split
    · exact absurd rfl (hrest '.' rfl).2
    · rfl
  | @some ds hds =>
    obtain ⟨htake, hdrop⟩ := span_digits hds.2 fun c hc => (hrest c hc).1
    rw [List.cons_append, scanPart, htake, hdrop, isEmpty_of_digits hds]
    rfl

/-- An exponent is taken off the text, or nothing if there is none. -/
theorem scanExponent_append {x : Option (Bool × List Char)} {es rest : List Char}
    (h : ExponentSpelled x es) (hrest : Stops rest) :
    scanExponent (es ++ rest) = some (x, rest) := by
  cases h with
  | none =>
    rw [List.nil_append, scanExponent.eq_def]
    rcases rest with _ | ⟨c, rest⟩
    · rfl
    · obtain ⟨-, -, he, hE⟩ := hrest c rfl
      exact if_neg (not_or.mpr ⟨he, hE⟩)
  | @plain e ds he hds =>
    obtain ⟨htake, hdrop⟩ := span_digits hds.2 fun c hc => (hrest c hc).1
    obtain ⟨c, ds, rfl⟩ := List.exists_cons_of_ne_nil hds.1
    obtain ⟨hplus, hminus⟩ := ne_sign_of_digits hds
    rw [List.cons_append] at htake hdrop
    rw [List.cons_append, List.cons_append, scanExponent, if_pos he]
    · simp only [htake, hdrop, isEmpty_of_digits hds]
      rfl
    · -- the first digit is no sign
      exact fun _ heq => hplus (List.cons.inj heq).1
    · exact fun _ heq => hminus (List.cons.inj heq).1
  | @plus e ds he hds =>
    obtain ⟨htake, hdrop⟩ := span_digits hds.2 fun c hc => (hrest c hc).1
    rw [List.cons_append, List.cons_append, scanExponent, if_pos he]
    simp only [htake, hdrop, isEmpty_of_digits hds]
    rfl
  | @minus e ds he hds =>
    obtain ⟨htake, hdrop⟩ := span_digits hds.2 fun c hc => (hrest c hc).1
    rw [List.cons_append, List.cons_append, scanExponent, if_pos he]
    simp only [htake, hdrop, isEmpty_of_digits hds]
    rfl

/-- An exponent, or what stands in its place, begins with neither digit nor point. -/
theorem head_exponent {x : Option (Bool × List Char)} {es rest : List Char}
    (h : ExponentSpelled x es) (hrest : Stops rest) :
    ∀ c ∈ (es ++ rest).head?, Decimal.isDigit c = false ∧ c ≠ '.' := by
  have hletter : ∀ e : Char, e = 'e' ∨ e = 'E' → Decimal.isDigit e = false ∧ e ≠ '.' := by
    rintro e (rfl | rfl) <;> decide
  cases h with
  | none => exact fun c hc => ⟨(hrest c hc).1, (hrest c hc).2.1⟩
  | plain he hds =>
    rintro _ ⟨⟩
    exact hletter _ he
  | plus he hds =>
    rintro _ ⟨⟩
    exact hletter _ he
  | minus he hds =>
    rintro _ ⟨⟩
    exact hletter _ he

/-- A fraction, or what stands in its place, begins with no digit. -/
theorem head_part {p : Option (List Char)} {ps rest : List Char} (h : PartSpelled p ps)
    (hrest : ∀ c ∈ rest.head?, Decimal.isDigit c = false) :
    ∀ c ∈ (ps ++ rest).head?, Decimal.isDigit c = false := by
  cases h with
  | none => exact hrest
  | some hds =>
    rintro _ ⟨⟩
    decide

/-- A number without a sign is taken off the text: its digits, its fraction and its
exponent, each as far as it goes. -/
theorem scanUnsigned_append {n : Numeral} {cs rest : List Char} (h : n.UnsignedSpelled cs)
    (hrest : Stops rest) : scanUnsigned n.negative (cs ++ rest) = some (n, rest) := by
  obtain ⟨negative, whole, part, exponent⟩ := n
  rcases h with @⟨ps, es, hwhole, hzero, hpart, hexponent⟩
  dsimp only at hwhole hzero hpart hexponent ⊢
  have hhead := head_exponent hexponent hrest
  obtain ⟨htake, hdrop⟩ := span_digits hwhole.2 (head_part hpart fun c hc => (hhead c hc).1)
  rw [List.append_assoc, List.append_assoc, scanUnsigned, htake, hdrop]
  -- there are digits before the point, and a zero in front of others is ruled out
  split
  · exact absurd rfl hwhole.1
  · exact absurd (hzero rfl) (by simp)
  · rw [scanPart_append hpart hhead]
    show (scanExponent (es ++ rest)).bind _ = _
    rw [scanExponent_append hexponent hrest]
    rfl

/-- A number is cut out of the text where its text ends. -/
theorem scan_append {n : Numeral} {cs rest : List Char} (h : n.Spelled cs) (hrest : Stops rest) :
    scan (cs ++ rest) = some (n, rest) := by
  cases h with
  | positive hn h =>
    have hscan := scanUnsigned_append h hrest
    rw [hn] at hscan
    obtain ⟨hwhole, -, -, -⟩ := h
    obtain ⟨c, ds, hds⟩ := List.exists_cons_of_ne_nil hwhole.1
    rw [hds] at hwhole
    rw [hds, List.cons_append, List.cons_append] at hscan ⊢
    rw [scan, hscan]
    rintro _ ⟨⟩
    exact (ne_sign_of_digits hwhole).2 rfl
  | negative hn h =>
    have hscan := scanUnsigned_append h hrest
    rw [hn] at hscan
    rw [List.cons_append, scan, hscan]

/-- A number begins with its sign or with a digit. -/
theorem Spelled.head {n : Numeral} {cs : List Char} (h : n.Spelled cs) :
    ∃ c ds, cs = c :: ds ∧ (c = '-' ∨ Decimal.isDigit c = true) := by
  cases h with
  | positive _ h =>
    obtain ⟨hwhole, -, -, -⟩ := h
    obtain ⟨c, ds, hds⟩ := List.exists_cons_of_ne_nil hwhole.1
    refine ⟨c, _, by rw [hds, List.cons_append], .inr (hwhole.2 c ?_)⟩
    rw [hds]
    exact List.mem_cons_self
  | negative _ _ => exact ⟨'-', _, rfl, .inl rfl⟩

/-! ### What is scanned is spelled -/

/-- Digits that must be there are taken off the text. -/
theorem exists_digits {α : Type} {f : List Char → α} {a : α} {cs rest : List Char}
    (h : (if (cs.takeWhile Decimal.isDigit).isEmpty = true then none
      else some (f (cs.takeWhile Decimal.isDigit), cs.dropWhile Decimal.isDigit))
        = some (a, rest)) :
    ∃ ds, Digits ds ∧ a = f ds ∧ cs = ds ++ rest := by
  split at h
  · cases h
  · next hds =>
    obtain ⟨rfl, rfl⟩ := Prod.mk.inj (Option.some.inj h)
    exact ⟨_, ⟨by simpa using hds, List.all_eq_true.mp List.all_takeWhile⟩, rfl,
      List.takeWhile_append_dropWhile.symm⟩

/-- What is taken off as a fraction is the text of one. -/
theorem spelled_of_scanPart {cs rest : List Char} {p : Option (List Char)}
    (h : scanPart cs = some (p, rest)) : ∃ ps, PartSpelled p ps ∧ cs = ps ++ rest := by
  rw [scanPart.eq_def] at h
  split at h
  · next cs =>
    obtain ⟨ds, hds, rfl, rfl⟩ := exists_digits (f := some) h
    exact ⟨_, .some hds, rfl⟩
  · obtain ⟨rfl, rfl⟩ := Prod.mk.inj (Option.some.inj h)
    exact ⟨[], .none, rfl⟩

/-- What is taken off as an exponent is the text of one. -/
theorem spelled_of_scanExponent {cs rest : List Char} {x : Option (Bool × List Char)}
    (h : scanExponent cs = some (x, rest)) : ∃ es, ExponentSpelled x es ∧ cs = es ++ rest := by
  rw [scanExponent.eq_def] at h
  split at h
  · next e cs =>
    split at h
    · next he =>
      -- the sign decides where the digits begin
      split at h
      · obtain ⟨ds, hds, rfl, rfl⟩ := exists_digits (f := fun ds => some (false, ds)) h
        exact ⟨_, .plus he hds, rfl⟩
      · obtain ⟨ds, hds, rfl, rfl⟩ := exists_digits (f := fun ds => some (true, ds)) h
        exact ⟨_, .minus he hds, rfl⟩
      · obtain ⟨ds, hds, rfl, rfl⟩ := exists_digits (f := fun ds => some (false, ds)) h
        exact ⟨_, .plain he hds, rfl⟩
    · obtain ⟨rfl, rfl⟩ := Prod.mk.inj (Option.some.inj h)
      exact ⟨[], .none, rfl⟩
  · obtain ⟨rfl, rfl⟩ := Prod.mk.inj (Option.some.inj h)
    exact ⟨[], .none, rfl⟩

/-- What is taken off as a number without a sign is the text of one, with no zero in
front of other digits. -/
theorem spelled_of_scanUnsigned {negative : Bool} {cs rest : List Char} {n : Numeral}
    (h : scanUnsigned negative cs = some (n, rest)) :
    n.negative = negative ∧ ∃ ts, n.UnsignedSpelled ts ∧ cs = ts ++ rest := by
  rw [scanUnsigned] at h
  have hcs := List.takeWhile_append_dropWhile (p := Decimal.isDigit) (l := cs)
  have hdigits : ∀ c ∈ cs.takeWhile Decimal.isDigit, Decimal.isDigit c = true :=
    List.all_eq_true.mp List.all_takeWhile
  generalize cs.takeWhile Decimal.isDigit = whole at h hcs hdigits
  generalize cs.dropWhile Decimal.isDigit = behind at h hcs
  split at h
  · cases h
  · cases h
  · next hne hnozero =>
    obtain ⟨⟨part, rest'⟩, hpart, h⟩ := Option.bind_eq_some_iff.mp h
    obtain ⟨⟨exponent, rest''⟩, hexponent, h⟩ := Option.bind_eq_some_iff.mp h
    obtain ⟨rfl, rfl⟩ := Prod.mk.inj (Option.some.inj h)
    obtain ⟨ps, hps, rfl⟩ := spelled_of_scanPart hpart
    obtain ⟨es, hes, rfl⟩ := spelled_of_scanExponent hexponent
    have hzero : whole.head? = some '0' → whole = ['0'] := by
      intro hhead
      obtain ⟨ds, rfl⟩ := List.head?_eq_some_iff.mp hhead
      rcases ds with _ | ⟨c, ds⟩
      · rfl
      · exact absurd rfl (hnozero c ds)
    refine ⟨rfl, _, .mk ⟨hne, hdigits⟩ hzero hps hes, ?_⟩
    rw [← hcs, List.append_assoc, List.append_assoc]

/-- What is cut out of the text as a number is the text of one. -/
theorem spelled_of_scan {cs rest : List Char} {n : Numeral} (h : scan cs = some (n, rest)) :
    ∃ ts, n.Spelled ts ∧ cs = ts ++ rest := by
  rw [scan.eq_def] at h
  split at h
  · obtain ⟨hn, ts, hts, rfl⟩ := spelled_of_scanUnsigned h
    exact ⟨_, .negative hn hts, rfl⟩
  · obtain ⟨hn, ts, hts, rfl⟩ := spelled_of_scanUnsigned h
    exact ⟨_, .positive hn hts, rfl⟩

end Numeral

/-! ## Texts -/

/-- The text of a piece: the character itself, its letter behind a backslash, or
four hexadecimal digits. -/
inductive PieceSpelled : Piece → List Char → Prop where
  | plain {c : Char} (hcontrol : ¬ c.toNat < 32) (hquote : c ≠ '"') (hslash : c ≠ '\\') :
    PieceSpelled (.char c) [c]
  | escaped {m c : Char} (hm : escaped? m = some c) : PieceSpelled (.char c) ['\\', m]
  | unit {a b c d : Char} {n : Nat} (hn : hexUnit? a b c d = some n) :
    PieceSpelled (.unit n) ['\\', 'u', a, b, c, d]

/-- The text of pieces in a row. -/
inductive PiecesSpelled : List Piece → List Char → Prop where
  | nil : PiecesSpelled [] []
  | cons {p : Piece} {ps : List Piece} {cs ds : List Char} (hp : PieceSpelled p cs)
    (hps : PiecesSpelled ps ds) : PiecesSpelled (p :: ps) (cs ++ ds)

/-- A letter behind a backslash is one piece, unless it is the letter of a unit. -/
theorem scanText_letter {cs rest : List Char} {ps : List Piece} {m c : Char}
    (hcs : scanText cs = some (ps, rest)) (hm : escaped? m = some c) (hu : m ≠ 'u') :
    scanText ('\\' :: m :: cs) = some (.char c :: ps, rest) := by
  rw [scanText, hm, hcs]
  -- a unit would have its own letter
  intro _ _ _ _ _ hm'
  exact absurd hm' hu

/-- One more piece in front of those that are read. -/
theorem scanText_piece {p : Piece} {cs ds rest : List Char} {ps : List Piece}
    (hp : PieceSpelled p cs) (hds : scanText ds = some (ps, rest)) :
    scanText (cs ++ ds) = some (p :: ps, rest) := by
  cases hp with
  | plain hcontrol hquote hslash =>
    rw [List.singleton_append, scanText.eq_def]
    split
    · contradiction
    · simp_all
    · simp_all
    · simp_all
    · simp_all
  | @escaped m c hm =>
    -- the letter of a unit is the letter of no character
    refine scanText_letter hds hm ?_
    rintro rfl
    cases hm
  | unit hn =>
    show scanText ('\\' :: 'u' :: _ :: _ :: _ :: _ :: ds) = _
    rw [scanText, hn, hds]

/-- Pieces are read up to the closing quotation mark. -/
theorem scanText_append {ps : List Piece} {cs : List Char} (h : PiecesSpelled ps cs)
    (rest : List Char) : scanText (cs ++ '"' :: rest) = some (ps, rest) := by
  induction h with
  | nil => rfl
  | cons hp _ ih =>
    rw [List.append_assoc]
    exact scanText_piece hp ih

/-- What is read as pieces is the text of pieces, with a quotation mark behind it. -/
theorem spelled_of_scanText {cs rest : List Char} {ps : List Piece}
    (h : scanText cs = some (ps, rest)) : ∃ ts, PiecesSpelled ps ts ∧ cs = ts ++ '"' :: rest := by
  fun_induction scanText cs generalizing ps with
  | case1 => cases h
  | case2 cs =>
    obtain ⟨rfl, rfl⟩ := Prod.mk.inj (Option.some.inj h)
    exact ⟨[], .nil, rfl⟩
  | case3 a b c d cs n ps' rest' hcs hn ih =>
    obtain ⟨rfl, rfl⟩ := Prod.mk.inj (Option.some.inj h)
    obtain ⟨ts, hts, rfl⟩ := ih hcs
    exact ⟨_, .cons (.unit hn) hts, rfl⟩
  | case4 => cases h
  | case5 c cs _ e ps' rest' hcs he ih =>
    obtain ⟨rfl, rfl⟩ := Prod.mk.inj (Option.some.inj h)
    obtain ⟨ts, hts, rfl⟩ := ih hcs
    exact ⟨_, .cons (.escaped he) hts, rfl⟩
  | case6 => cases h
  | case7 => cases h
  | case8 c cs hquote _ _ hplain ps' rest' hcs ih =>
    obtain ⟨rfl, rfl⟩ := Prod.mk.inj (Option.some.inj h)
    obtain ⟨ts, hts, rfl⟩ := ih hcs
    obtain ⟨hslash, hcontrol⟩ := not_or.mp hplain
    exact ⟨_, .cons (.plain hcontrol hquote hslash) hts, rfl⟩
  | case9 => cases h

end Json

end LoadTest
