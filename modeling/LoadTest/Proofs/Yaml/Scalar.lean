/-
Printed scalars in YAML texts.

Texts are printed between quotation marks, and what is escaped there is escaped
in a way that double quotation marks in YAML know too. No printed character
breaks a line, so a scan never leaves the line; blanks are held back until the
next character, and the closing mark lets them count. Words end where a
collection in brackets goes on or ends.
-/
import LoadTest.Proofs.Document.Holds
import LoadTest.Yaml.Scalar

set_option autoImplicit false

namespace LoadTest.Yaml

/-! ## Printed characters -/

/-- A character that printed values are made of, if no character in their texts
lies behind the tilde. -/
def IsPrinted (c : Char) : Prop := 32 ≤ c.toNat ∧ c.toNat ≤ 0x7E

instance (c : Char) : Decidable (IsPrinted c) :=
  inferInstanceAs (Decidable (32 ≤ c.toNat ∧ c.toNat ≤ 0x7E))

/-- No printed character breaks a line. -/
theorem isBreak_of_isPrinted {c : Char} (hc : IsPrinted c) : isBreak c = false := by
  have hne {d : Char} (hd : d.toNat < 32) : (c == d) = false := by
    refine beq_eq_false_iff_ne.mpr ?_
    rintro rfl
    exact absurd hc.1 (by omega)
  have hhigh := hc.2
  have hnext : (c.toNat == 0x85) = false := beq_eq_false_iff_ne.mpr (by omega)
  have hline : (c.toNat == 0x2028) = false := beq_eq_false_iff_ne.mpr (by omega)
  have hparagraph : (c.toNat == 0x2029) = false := beq_eq_false_iff_ne.mpr (by omega)
  rw [isBreak, isSeparator, hne (by decide), hne (by decide), hnext, hline, hparagraph]
  rfl

/-- Every printed character may stand in a text. -/
theorem isReadable_of_isPrinted {c : Char} (hc : IsPrinted c) : isReadable c = true := by
  have hrange : (decide (0x20 ≤ c.toNat) && decide (c.toNat ≤ 0x7E)) = true := by
    rw [Bool.and_eq_true, decide_eq_true_eq, decide_eq_true_eq]
    exact hc
  simp only [isReadable, hrange, Bool.or_true, Bool.true_or]

/-- Characters of names are printed. -/
theorem isPrinted_of_isWord {c : Char} (hc : isWord c = true) : IsPrinted c := by
  simp only [isWord, Bool.or_eq_true, Bool.and_eq_true, decide_eq_true_eq, beq_iff_eq] at hc
  rcases hc with (((⟨hlow, hhigh⟩ | ⟨hlow, hhigh⟩) | ⟨hlow, hhigh⟩) | rfl) | rfl
  · exact ⟨Nat.le_trans (by decide) hlow, Nat.le_trans hhigh (by decide)⟩
  · exact ⟨Nat.le_trans (by decide) hlow, Nat.le_trans hhigh (by decide)⟩
  · exact ⟨Nat.le_trans (by decide) hlow, Nat.le_trans hhigh (by decide)⟩
  · decide
  · decide

theorem isPrinted_hexDigit : ∀ n < 16, IsPrinted (Quoted.hexDigit n) := by decide

/-- What JSON writes as a letter behind a backslash, YAML writes so as well. -/
theorem shortEscape?_of_escaped? {m c : Char} (h : Json.escaped? m = some c) :
    shortEscape? m = some c ∧ IsPrinted m := by
  unfold Json.escaped? at h
  split_ifs at h with h₁ h₂ h₃ h₄ h₅ h₆ h₇ h₈
  · obtain rfl := h₁
    exact ⟨h, by decide⟩
  · obtain rfl := h₂
    exact ⟨h, by decide⟩
  · obtain rfl := h₃
    exact ⟨h, by decide⟩
  · obtain rfl := h₄
    exact ⟨h, by decide⟩
  · obtain rfl := h₅
    exact ⟨h, by decide⟩
  · obtain rfl := h₆
    exact ⟨h, by decide⟩
  · obtain rfl := h₇
    exact ⟨h, by decide⟩
  · obtain rfl := h₈
    exact ⟨h, by decide⟩

/-- The four digits of a control are read as its number. -/
theorem digits?_control : ∀ n < 32,
    Plain.digits? 16 ['0', '0', Quoted.hexDigit (n / 16), Quoted.hexDigit (n % 16)] = some n := by
  decide

/-- A control is written by its number, in two hexadecimal digits behind two zeros. -/
theorem escape?_control {c : Char} (hc : c.toNat < 32) (cs : List Char) :
    escape? ('u' :: '0' :: '0' :: Quoted.hexDigit (c.toNat / 16) :: Quoted.hexDigit (c.toNat % 16)
      :: cs) = some (c, 5) := by
  have hvalid : c.toNat.isValidChar := Or.inl (by omega)
  have hchar : hexChar? 4 ('0' :: '0' :: Quoted.hexDigit (c.toNat / 16)
      :: Quoted.hexDigit (c.toNat % 16) :: cs) = some c := by
    have hlength : ¬ ('0' :: '0' :: Quoted.hexDigit (c.toNat / 16)
        :: Quoted.hexDigit (c.toNat % 16) :: cs).length < 4 := by
      simp only [List.length_cons]
      omega
    have htake : List.take 4 ('0' :: '0' :: Quoted.hexDigit (c.toNat / 16)
        :: Quoted.hexDigit (c.toNat % 16) :: cs)
        = ['0', '0', Quoted.hexDigit (c.toNat / 16), Quoted.hexDigit (c.toNat % 16)] := rfl
    rw [hexChar?, if_neg hlength, htake, digits?_control c.toNat hc]
    simp only [if_pos hvalid, Char.ofNat_toNat]
  change ((hexChar? 4 _).bind fun a => some (a, 5)) = _
  rw [hchar]
  rfl

/-- A character up to the tilde is printed in characters from the blank to the tilde, a
control too. -/
theorem isPrinted_of_mem_escape {c a : Char} (hc : c.toNat ≤ 0x7E) (ha : a ∈ Json.escape c) :
    IsPrinted a := by
  rcases Json.escape_cases c with ⟨m, hm, hescaped, -⟩ | ⟨hcontrol, hunit⟩ | ⟨hplain, -, -, hself⟩
  · rw [hm, List.mem_cons, List.mem_singleton] at ha
    rcases ha with rfl | rfl
    · decide
    · exact (shortEscape?_of_escaped? hescaped).2
  · rw [hunit] at ha
    simp only [List.mem_cons, List.not_mem_nil, or_false] at ha
    rcases ha with rfl | rfl | rfl | rfl | rfl | rfl
    · decide
    · decide
    · decide
    · decide
    · exact isPrinted_hexDigit _ (by omega)
    · exact isPrinted_hexDigit _ (by omega)
  · rw [hself, List.mem_singleton] at ha
    rw [ha]
    exact ⟨by omega, hc⟩

theorem escape_ne_nil (c : Char) : Json.escape c ≠ [] := by
  rcases Json.escape_cases c with ⟨m, hm, -⟩ | ⟨-, hunit⟩ | ⟨-, -, -, hself⟩
  · exact hm ▸ List.cons_ne_nil _ _
  · exact hunit ▸ List.cons_ne_nil _ _
  · exact hself ▸ List.cons_ne_nil _ _

/-- A text without characters behind the tilde. -/
def IsAscii (s : String) : Prop := ∀ c ∈ s.toList, c.toNat ≤ 0x7E

instance (s : String) : Decidable (IsAscii s) :=
  List.decidableBAll (fun c : Char => c.toNat ≤ 0x7E) s.toList

/-- A text of characters up to the tilde is printed in characters from the blank to the
tilde. -/
theorem isPrinted_of_mem_quote {s : String} (hs : IsAscii s) {a : Char} (ha : a ∈ Json.quote s) :
    IsPrinted a := by
  rw [Json.quote, List.mem_cons, List.mem_append, List.mem_singleton, List.mem_flatMap] at ha
  rcases ha with rfl | ⟨c, hc, ha⟩ | rfl
  · decide
  · exact isPrinted_of_mem_escape (hs c hc) ha
  · decide

/-! ## Cursors on a line of printed characters -/

theorem octets_append (cs ds : List Char) : octets (cs ++ ds) = octets cs + octets ds := by
  induction cs with
  | nil => rw [List.nil_append, octets_nil, Nat.zero_add]
  | cons c cs ih => rw [List.cons_append, octets_cons, octets_cons, ih, Nat.add_assoc]

namespace Cursor

theorem skip_skip (m n : Nat) (c : Cursor) : (c.skip m).skip n = c.skip (m + n) := by
  rw [skip, skip, skip]
  rw [List.drop_drop, List.take_add, octets_append, Nat.add_assoc, Nat.add_assoc]

theorem nextLine?_of_isPrinted {c : Cursor} {a : Char} {cs : List Char} (hrest : c.rest = a :: cs)
    (ha : IsPrinted a) : c.nextLine? = none :=
  nextLine?_eq_none hrest (isBreak_of_isPrinted ha)

/-- Behind the first column no marker begins. -/
theorem atMarker_of_pos {c : Cursor} (h : 0 < c.column) : c.atMarker = false := by
  have hcolumn : (c.column == 0) = false := beq_eq_false_iff_ne.mpr (by omega)
  rw [atMarker, hcolumn]
  rfl

end Cursor

/-! ## Quoted scalars -/

section Quoted

variable {c : Cursor} {cs : List Char} {fuel : Nat}

/-- A blank is kept aside until it is known what follows it. -/
theorem scanQuoted_blank (hrest : c.rest = ' ' :: cs) (bs : List Char) :
    scanQuoted true (fuel + 1) (.blanks bs) c
      = scanQuoted true fuel (.blanks (bs ++ [' '])) (c.skip 1) := by
  rw [scanQuoted, hrest]
  rfl

/-- At the closing quotation mark the scalar ends, with the blanks that were kept aside. -/
theorem scanQuoted_close (hrest : c.rest = '"' :: cs) (hcolumn : 0 < c.column) (gap : Gap) :
    scanQuoted true (fuel + 1) gap c = some (gap.text, c.skip 1) := by
  rw [scanQuoted, hrest]
  simp only [Cursor.nextLine?_of_isPrinted hrest (by decide), Cursor.atMarker_of_pos hcolumn]
  rfl

/-- A backslash and what belongs to it stand for one character. -/
theorem scanQuoted_escape {m e : Char} {n : Nat} (hrest : c.rest = '\\' :: m :: cs)
    (hcolumn : 0 < c.column) (hm : IsPrinted m) (hescape : escape? (m :: cs) = some (e, n))
    (gap : Gap) :
    scanQuoted true (fuel + 1) gap c
      = (scanQuoted true fuel .empty (c.skip (n + 1))).map (prepend (gap.text ++ [e])) := by
  have hsecond : (c.skip 1).nextLine? = none :=
    Cursor.nextLine?_of_isPrinted (by rw [Cursor.rest_skip, hrest]; rfl) hm
  rw [scanQuoted, hrest]
  simp only [Cursor.nextLine?_of_isPrinted hrest (by decide), Cursor.atMarker_of_pos hcolumn,
    hsecond, hescape]
  rfl

/-- A character that is neither a blank, a quotation mark nor a backslash stands for
itself. -/
theorem scanQuoted_self {a : Char} (hrest : c.rest = a :: cs) (hcolumn : 0 < c.column)
    (ha : IsPrinted a) (hblank : isBlank a = false) (hquote : a ≠ '"') (hslash : a ≠ '\\')
    (gap : Gap) :
    scanQuoted true (fuel + 1) gap c
      = (scanQuoted true fuel .empty (c.skip 1)).map (prepend (gap.text ++ [a])) := by
  rw [scanQuoted, hrest]
  simp only [Cursor.nextLine?_of_isPrinted hrest ha, Cursor.atMarker_of_pos hcolumn, hblank,
    if_neg hquote, if_neg hslash]
  rfl

/-- One printed character in front of a text that is scanned up to its end,
whichever blanks are held back. -/
theorem scanQuoted_char {a : Char} {s : List Char} {c' : Cursor} (ha : a.toNat ≤ 0x7E)
    (hrest : c.rest = Json.escape a ++ cs) (hcolumn : 0 < c.column)
    (hscan : ∀ bs, scanQuoted true fuel (.blanks bs) (c.skip (Json.escape a).length)
      = some (bs ++ s, c')) (bs : List Char) :
    scanQuoted true (fuel + 1) (.blanks bs) c = some (bs ++ a :: s, c') := by
  have hkeep : (scanQuoted true fuel .empty (c.skip (Json.escape a).length)).map
      (prepend (bs ++ [a])) = some (bs ++ a :: s, c') := by
    have hempty := hscan []
    rw [List.nil_append] at hempty
    rw [Gap.empty, hempty, Option.map_some, prepend, List.append_assoc]
    rfl
  rcases Json.escape_cases a with ⟨m, hm, hescaped, -⟩ | ⟨hcontrol, hunit⟩
    | ⟨-, hquote, hslash, hself⟩
  · obtain ⟨hshort, hprinted⟩ := shortEscape?_of_escaped? hescaped
    have hescape : escape? (m :: cs) = some (a, 1) := by rw [escape?, hshort]
    rw [hm] at hrest hkeep
    rw [scanQuoted_escape hrest hcolumn hprinted hescape]
    exact hkeep
  · rw [hunit] at hrest hkeep
    rw [scanQuoted_escape hrest hcolumn (by decide) (escape?_control hcontrol cs)]
    exact hkeep
  · have hprinted : IsPrinted a := isPrinted_of_mem_escape ha (hself ▸ List.mem_singleton_self a)
    rw [hself] at hrest hkeep hscan
    by_cases hblank : a = ' '
    · -- a blank counts when the next character does
      obtain rfl := hblank
      rw [scanQuoted_blank hrest]
      refine (hscan _).trans ?_
      rw [List.append_assoc]
      rfl
    · have hline : isBlank a = false := by
        rw [isBlank, beq_eq_false_iff_ne.mpr hblank, Bool.false_or, beq_eq_false_iff_ne]
        rintro rfl
        exact absurd hprinted (by decide)
      rw [scanQuoted_self hrest hcolumn hprinted hline hquote hslash]
      exact hkeep

/-- A printed text is scanned up to its closing mark, whichever blanks are held back. -/
theorem scanQuoted_printed {s rest : List Char} (hs : ∀ a ∈ s, a.toNat ≤ 0x7E)
    (hrest : c.rest = s.flatMap Json.escape ++ '"' :: rest) (hcolumn : 0 < c.column)
    (hfuel : (s.flatMap Json.escape).length < fuel) (bs : List Char) :
    scanQuoted true fuel (.blanks bs) c
      = some (bs ++ s, c.skip ((s.flatMap Json.escape).length + 1)) := by
  induction s generalizing c fuel bs with
  | nil =>
    obtain ⟨fuel, rfl⟩ := Nat.exists_eq_add_one.mpr (Nat.zero_lt_of_lt hfuel)
    rw [scanQuoted_close hrest hcolumn, List.append_nil]
    rfl
  | cons a s ih =>
    obtain ⟨fuel, rfl⟩ := Nat.exists_eq_add_one.mpr (Nat.zero_lt_of_lt hfuel)
    obtain ⟨ha, hs⟩ := List.forall_mem_cons.mp hs
    rw [List.flatMap_cons, List.append_assoc] at hrest
    rw [List.flatMap_cons, List.length_append] at hfuel ⊢
    have hpos : 0 < (Json.escape a).length := List.length_pos_iff.mpr (escape_ne_nil a)
    have hbehind : (c.skip (Json.escape a).length).rest = s.flatMap Json.escape ++ '"' :: rest := by
      rw [Cursor.rest_skip, hrest, List.drop_left]
    have hscan (bs : List Char) : scanQuoted true fuel (.blanks bs) (c.skip (Json.escape a).length)
        = some (bs ++ s,
          c.skip ((Json.escape a).length + ((s.flatMap Json.escape).length + 1))) := by
      rw [← Cursor.skip_skip]
      exact ih hs hbehind (Nat.lt_of_lt_of_le hcolumn (Nat.le_add_right _ _)) (by omega) bs
    rw [Nat.add_assoc]
    exact scanQuoted_char ha hrest hcolumn hscan bs

/-- A text between quotation marks is read as it was. -/
theorem quotedScalar_quote {s : String} {rest : List Char} (hs : IsAscii s)
    (hrest : c.rest = Json.quote s ++ rest) (hfuel : (Json.quote s).length ≤ fuel) :
    quotedScalar true fuel c = some (s, c.skip (Json.quote s).length) := by
  have hbehind : (c.skip 1).rest = s.toList.flatMap Json.escape ++ '"' :: rest := by
    rw [Cursor.rest_skip, hrest, Json.quote, List.cons_append, List.append_assoc]
    rfl
  have hlength : (Json.quote s).length = 1 + ((s.toList.flatMap Json.escape).length + 1) := by
    rw [Json.quote, List.length_cons, List.length_append, List.length_singleton]
    omega
  have hcolumn : 0 < (c.skip 1).column := Nat.succ_pos c.column
  rw [quotedScalar, Gap.empty, scanQuoted_printed hs hbehind hcolumn (by omega), Option.map_some,
    List.nil_append, String.ofList_toList, Cursor.skip_skip, hlength]

end Quoted

/-! ## Words -/

theorem isWord_of_isDigit {c : Char} (hc : Decimal.isDigit c = true) : isWord c = true := by
  rw [Decimal.isDigit] at hc
  simp only [isWord, hc, Bool.true_or]

/-- Null, the truth values and integers are printed in characters of names. -/
theorem isWord_of_mem_chars {j : Json} (hj : j.isWord = true) {c : Char} (hc : c ∈ Json.chars j) :
    isWord c = true := by
  obtain rfl | ⟨b, rfl⟩ | ⟨n, rfl⟩ := Json.eq_of_isWord hj
  · have hall : ['n', 'u', 'l', 'l'].all isWord = true := by decide
    exact List.all_eq_true.mp hall c hc
  · cases b with
    | false =>
      have hall : ['f', 'a', 'l', 's', 'e'].all isWord = true := by decide
      exact List.all_eq_true.mp hall c hc
    | true =>
      have hall : ['t', 'r', 'u', 'e'].all isWord = true := by decide
      exact List.all_eq_true.mp hall c hc
  · rw [Json.chars, Decimal.intDigits] at hc
    by_cases hn : n < 0
    · rw [if_pos hn, List.mem_cons] at hc
      rcases hc with rfl | hc
      · decide
      · exact isWord_of_isDigit (Decimal.isDigit_of_mem_digits hc)
    · rw [if_neg hn] at hc
      exact isWord_of_isDigit (Decimal.isDigit_of_mem_digits hc)

/-- A character that names do not have differs from all that they have. -/
theorem ne_of_isWord {a d : Char} (ha : isWord a = true) (hd : isWord d = false) : a ≠ d := by
  rintro rfl
  rw [ha] at hd
  cases hd

theorem isBlank_of_isWord {a : Char} (ha : isWord a = true) : isBlank a = false := by
  rw [isBlank, Bool.or_eq_false_iff, beq_eq_false_iff_ne, beq_eq_false_iff_ne]
  exact ⟨ne_of_isWord ha (by decide), ne_of_isWord ha (by decide)⟩

/-- No character of a word marks the structure of a collection. -/
theorem isFlowMark_of_isWord {a : Char} (ha : isWord a = true) : isFlowMark a = false := by
  simp only [isFlowMark, Bool.or_eq_false_iff, beq_eq_false_iff_ne]
  exact ⟨⟨⟨⟨ne_of_isWord ha (by decide), ne_of_isWord ha (by decide)⟩,
    ne_of_isWord ha (by decide)⟩, ne_of_isWord ha (by decide)⟩, ne_of_isWord ha (by decide)⟩

/-- What follows is nothing, or closes or separates a value. -/
def Closes (rest : List Char) : Prop :=
  rest = [] ∨ ∃ c cs, rest = c :: cs ∧ (c = ',' ∨ c = ']' ∨ c = '}')

theorem closes_cons {c : Char} (hc : c = ',' ∨ c = ']' ∨ c = '}') (cs : List Char) :
    Closes (c :: cs) :=
  .inr ⟨c, cs, rfl, hc⟩

section Plain

variable {c : Cursor} {fuel : Nat}

/-- A word ends where the collection around it goes on or ends. -/
theorem scanPlain_closes {rest : List Char} (hrest : c.rest = rest) (hcloses : Closes rest)
    (indent : Nat) : scanPlain true indent (fuel + 1) .empty c = some ([], false, c) := by
  rcases hcloses with rfl | ⟨a, cs, rfl, ha⟩
  · rw [scanPlain, hrest]
    rfl
  · have hmark : isFlowMark a = true ∧ isBlank a = false ∧ IsPrinted a := by
      rcases ha with rfl | rfl | rfl
      · decide
      · decide
      · decide
    obtain ⟨hmark, hblank, hprinted⟩ := hmark
    have hends : endsPlain true indent .empty c a cs = true := by
      rw [endsPlain, hmark, Bool.true_and, Bool.or_true]
    rw [scanPlain, hrest]
    simp only [hblank, Cursor.nextLine?_of_isPrinted hrest hprinted, hends]
    rfl

/-- A word is scanned up to what closes or separates it. -/
theorem scanPlain_word {w rest : List Char} (hw : ∀ a ∈ w, isWord a = true)
    (hrest : c.rest = w ++ rest) (hcolumn : 0 < c.column) (hcloses : Closes rest)
    (hfuel : w.length < fuel) (indent : Nat) :
    scanPlain true indent fuel .empty c = some (w, false, c.skip w.length) := by
  induction w generalizing c fuel with
  | nil =>
    obtain ⟨fuel, rfl⟩ := Nat.exists_eq_add_one.mpr (Nat.zero_lt_of_lt hfuel)
    exact scanPlain_closes hrest hcloses indent
  | cons a w ih =>
    obtain ⟨fuel, rfl⟩ := Nat.exists_eq_add_one.mpr (Nat.zero_lt_of_lt hfuel)
    obtain ⟨ha, hw⟩ := List.forall_mem_cons.mp hw
    rw [List.length_cons] at hfuel ⊢
    rw [List.cons_append] at hrest
    have hcolon : (a == ':') = false := beq_eq_false_iff_ne.mpr (ne_of_isWord ha (by decide))
    have hends : endsPlain true indent .empty c a (w ++ rest) = false := by
      rw [endsPlain, Cursor.atMarker_of_pos hcolumn, hcolon, isFlowMark_of_isWord ha]
      rfl
    have hscan : scanPlain true indent fuel .empty (c.skip 1)
        = some (w, false, c.skip (1 + w.length)) := by
      rw [← Cursor.skip_skip]
      refine ih hw ?_ (Nat.succ_pos c.column) (by omega)
      rw [Cursor.rest_skip, hrest]
      rfl
    rw [scanPlain, hrest]
    simp only [isBlank_of_isWord ha, Cursor.nextLine?_of_isPrinted hrest (isPrinted_of_isWord ha),
      hends, hcolon, Bool.and_false, Bool.false_and, hscan]
    rw [Nat.add_comm w.length 1]
    rfl

/-- A word is read as it was printed, and no line ends behind it. -/
theorem plainScalar_word {j : Json} {rest : List Char} (hj : j.isWord = true)
    (hrest : c.rest = Json.chars j ++ rest) (hcolumn : 0 < c.column) (hcloses : Closes rest)
    (hfuel : (Json.chars j).length < fuel) (indent : Nat) :
    plainScalar true indent fuel c = some (j.print, false, c.skip (Json.chars j).length) := by
  have hword := fun a ha => isWord_of_mem_chars hj (c := a) ha
  rw [plainScalar, scanPlain_word hword hrest hcolumn hcloses hfuel indent]
  rfl

end Plain

end LoadTest.Yaml
