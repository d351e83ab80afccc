/-
Which texts are read, and as which documents.

The texts of a document are written down here as a grammar, without the parser: the
numbers and quoted texts of `Proofs.Json.Lexical`, with blanks before and behind every
value, comma and colon. `parse_eq_iff` says that the parser reads exactly these
texts, and which document it makes of each.

Both halves go by the steps of the parser. That what is spelled is read asks of the
rest of the text only that it does not prolong a number, and counts two steps for
every character. That what is read is spelled asks for nothing: a step tells which
characters it has taken off the text.
-/
import LoadTest.Proofs.Json.Lexical

set_option autoImplicit false

namespace LoadTest

namespace Json

/-! ## Grammar -/

mutual
/-- The document is spelled by the text, below so many collections. -/
inductive Spelled : Nat → Document → List Char → Prop where
  | wordNull {depth : Nat} : Spelled depth .null ['n', 'u', 'l', 'l']
  | wordTrue {depth : Nat} : Spelled depth (.bool true) ['t', 'r', 'u', 'e']
  | wordFalse {depth : Nat} : Spelled depth (.bool false) ['f', 'a', 'l', 's', 'e']
  | number {depth : Nat} {n : Numeral} {cs : List Char} (hn : n.Spelled cs) :
    Spelled depth n.toDocument cs
  | text {depth : Nat} {ps : List Piece} {cs : List Char} (hps : PiecesSpelled ps cs) :
    Spelled depth (textDocument ps) ('"' :: (cs ++ ['"']))
  | emptyArray {depth : Nat} {b : List Char} (hb : Blank b) :
    Spelled depth (atDepth depth (.sequence [] true)) ('[' :: (b ++ [']']))
  | array {depth : Nat} {ds : List Document} {b cs : List Char} (hb : Blank b)
    (hds : ItemsSpelled (depth + 1) ds cs) :
    Spelled depth (atDepth depth (.sequence ds true)) ('[' :: (b ++ cs))
  | emptyObject {depth : Nat} {b : List Char} (hb : Blank b) :
    Spelled depth (atDepth depth (.map [] true)) ('{' :: (b ++ ['}']))
  | object {depth : Nat} {ms : List (Document × Document)} {b cs : List Char} (hb : Blank b)
    (hms : MembersSpelled (depth + 1) ms cs) :
    Spelled depth (atDepth depth (.map ms true)) ('{' :: (b ++ '"' :: cs))

/-- Elements are spelled by the text from the first of them to the closing bracket. -/
inductive ItemsSpelled : Nat → List Document → List Char → Prop where
  | last {depth : Nat} {d : Document} {cs b : List Char} (hd : Spelled depth d cs) (hb : Blank b) :
    ItemsSpelled depth [d] (cs ++ (b ++ [']']))
  | next {depth : Nat} {d : Document} {ds : List Document} {cs b b' cs' : List Char}
    (hd : Spelled depth d cs) (hb : Blank b) (hb' : Blank b') (hds : ItemsSpelled depth ds cs') :
    ItemsSpelled depth (d :: ds) (cs ++ (b ++ ',' :: (b' ++ cs')))

/-- Members are spelled by the text behind the first quotation mark, up to the
closing brace. -/
inductive MembersSpelled : Nat → List (Document × Document) → List Char → Prop where
  | last {depth : Nat} {ps : List Piece} {d : Document} {ks b₁ b₂ cs b₃ : List Char}
    (hk : PiecesSpelled ps ks) (hb₁ : Blank b₁) (hb₂ : Blank b₂) (hd : Spelled depth d cs)
    (hb₃ : Blank b₃) :
    MembersSpelled depth [(textDocument ps, d)]
      (ks ++ '"' :: (b₁ ++ ':' :: (b₂ ++ (cs ++ (b₃ ++ ['}'])))))
  | next {depth : Nat} {ps : List Piece} {d : Document} {ms : List (Document × Document)}
    {ks b₁ b₂ cs b₃ b₄ cs' : List Char} (hk : PiecesSpelled ps ks) (hb₁ : Blank b₁)
    (hb₂ : Blank b₂) (hd : Spelled depth d cs) (hb₃ : Blank b₃) (hb₄ : Blank b₄)
    (hms : MembersSpelled depth ms cs') :
    MembersSpelled depth ((textDocument ps, d) :: ms)
      (ks ++ '"' :: (b₁ ++ ':' :: (b₂ ++ (cs ++ (b₃ ++ ',' :: (b₄ ++ '"' :: cs'))))))
end

/-- A value begins with a character that is no blank and closes nothing. -/
theorem Spelled.head {depth : Nat} {d : Document} {cs : List Char} (h : Spelled depth d cs) :
    ∃ a as, cs = a :: as ∧ isBlank a = false ∧ a ≠ ']' := by
  cases h with
  | number hn =>
    obtain ⟨a, as, rfl, ha⟩ := hn.head
    have hother := fun d => ne_of_sign_or_digit (d := d) ha
    refine ⟨a, as, rfl, ?_, hother ']' (by decide) (by decide)⟩
    simp only [isBlank, Bool.or_eq_false_iff, beq_eq_false_iff_ne]
    exact ⟨⟨⟨hother ' ' (by decide) (by decide), hother '\n' (by decide) (by decide)⟩,
      hother '\t' (by decide) (by decide)⟩, hother '\r' (by decide) (by decide)⟩
  | _ => exact ⟨_, _, rfl, by decide, by decide⟩

/-- Elements begin as the first of them does. -/
theorem ItemsSpelled.head {depth : Nat} {ds : List Document} {cs : List Char}
    (h : ItemsSpelled depth ds cs) : ∃ a as, cs = a :: as ∧ isBlank a = false ∧ a ≠ ']' := by
  cases h with
  | last hd _ =>
    obtain ⟨a, as, rfl, ha⟩ := hd.head
    exact ⟨a, _, rfl, ha⟩
  | next hd _ _ _ =>
    obtain ⟨a, as, rfl, ha⟩ := hd.head
    exact ⟨a, _, rfl, ha⟩

/-- Blanks in front of a value are skipped, and nothing of the value. -/
theorem skipBlanks_spelled {depth : Nat} {d : Document} {b cs : List Char} (hb : Blank b)
    (h : Spelled depth d cs) (rest : List Char) : skipBlanks (b ++ (cs ++ rest)) = cs ++ rest := by
  obtain ⟨a, as, rfl, ha, -⟩ := h.head
  rw [skipBlanks_append hb, List.cons_append, skipBlanks_cons ha]

/-! ## What is spelled is read -/

/-- Given so many steps, texts of no more than half as many characters are read as
the documents that they spell. -/
structure Complete (fuel : Nat) : Prop where
  value : ∀ depth d cs rest, Spelled depth d cs → 2 * cs.length ≤ fuel → Stops rest →
    value fuel depth (cs ++ rest) = (d, some rest)
  items : ∀ depth ds cs rest, ItemsSpelled depth ds cs → 2 * cs.length ≤ fuel →
    items fuel depth (cs ++ rest) = (ds, some rest)
  members : ∀ depth ms cs rest, MembersSpelled depth ms cs → 2 * cs.length ≤ fuel →
    members fuel depth (cs ++ rest) = (ms, some rest)

/-- A text that begins with a sign or a digit is read as a number. -/
theorem value_of_scan {c : Char} {cs rest : List Char} {n : Numeral} (fuel depth : Nat)
    (hc : c = '-' ∨ Decimal.isDigit c = true) (hscan : Numeral.scan (c :: cs) = some (n, rest)) :
    value (fuel + 1) depth (c :: cs) = (n.toDocument, some rest) := by
  have hn : c ≠ 'n' := ne_of_sign_or_digit hc (by decide) (by decide)
  have ht : c ≠ 't' := ne_of_sign_or_digit hc (by decide) (by decide)
  have hf : c ≠ 'f' := ne_of_sign_or_digit hc (by decide) (by decide)
  have hquote : c ≠ '"' := ne_of_sign_or_digit hc (by decide) (by decide)
  have hbracket : c ≠ '[' := ne_of_sign_or_digit hc (by decide) (by decide)
  have hbrace : c ≠ '{' := ne_of_sign_or_digit hc (by decide) (by decide)
  rw [value.eq_def]
  simp [hn, ht, hf, hquote, hbracket, hbrace, hscan]

/-- A value is read in one step more than its parts, by the first character of its text. -/
theorem Complete.value_succ {fuel : Nat} (h : Complete fuel) (depth : Nat) (d : Document)
    (cs rest : List Char) (hd : Spelled depth d cs) (hfuel : 2 * cs.length ≤ fuel + 1)
    (hrest : Stops rest) : Json.value (fuel + 1) depth (cs ++ rest) = (d, some rest) := by
  cases hd with
  | wordNull => rfl
  | wordTrue => rfl
  | wordFalse => rfl
  | number hn =>
    have hscan := Numeral.scan_append hn hrest
    obtain ⟨a, as, rfl, ha⟩ := hn.head
    exact value_of_scan fuel depth ha hscan
  | text hps =>
    rw [List.cons_append, List.append_assoc, List.singleton_append, Json.value, scanText_append hps]
  | emptyArray hb =>
    rw [List.cons_append, List.append_assoc, Json.value, skipBlanks_append hb]
    rfl
  | @array _ ds b cs hb hds =>
    rw [List.length_cons, List.length_append] at hfuel
    have hitems := h.items _ _ _ rest hds (by omega)
    obtain ⟨a, as, rfl, ha, hbracket⟩ := hds.head
    have hskip : skipBlanks (b ++ (a :: as ++ rest)) = a :: as ++ rest := by
      rw [skipBlanks_append hb, List.cons_append, skipBlanks_cons ha]
    rw [List.cons_append, List.append_assoc, Json.value, hskip]
    -- the first element does not begin with a bracket
    split
    · next heq => exact absurd (List.cons.inj heq).1 hbracket
    · simp only [hitems, Option.isSome_some]
  | emptyObject hb =>
    rw [List.cons_append, List.append_assoc, Json.value, skipBlanks_append hb]
    rfl
  | @object _ ms b cs hb hms =>
    rw [List.length_cons, List.length_append, List.length_cons] at hfuel
    have hmembers := h.members _ _ _ rest hms (by omega)
    have hskip : skipBlanks (b ++ '"' :: (cs ++ rest)) = '"' :: (cs ++ rest) :=
      skipBlanks_append hb _
    rw [List.cons_append, List.append_assoc, List.cons_append, Json.value, hskip]
    simp only [hmembers, Option.isSome_some]

/-- The first element is read, then what separates it from the next or ends the array,
then the others. -/
theorem Complete.items_succ {fuel : Nat} (h : Complete fuel) (depth : Nat) (ds : List Document)
    (cs rest : List Char) (hds : ItemsSpelled depth ds cs) (hfuel : 2 * cs.length ≤ fuel + 1) :
    Json.items (fuel + 1) depth (cs ++ rest) = (ds, some rest) := by
  cases hds with
  | @last _ d cs b hd hb =>
    simp only [List.length_append, List.length_singleton] at hfuel
    have hstops : Stops (b ++ ']' :: rest) := (stops_cons (by decide) rest).append hb
    have hread := h.value _ _ _ _ hd (by omega) hstops
    have hskip : skipBlanks (b ++ ']' :: rest) = ']' :: rest := skipBlanks_append hb _
    rw [List.append_assoc, List.append_assoc, List.singleton_append, Json.items, hread]
    simp only [hskip]
  | @next _ d ds cs b b' cs' hd hb hb' hds =>
    simp only [List.length_append, List.length_cons] at hfuel
    have hstops : Stops (b ++ ',' :: (b' ++ (cs' ++ rest))) := (stops_cons (by decide) _).append hb
    have hread := h.value _ _ _ _ hd (by omega) hstops
    have hitems := h.items _ _ _ rest hds (by omega)
    have hskip : skipBlanks (b ++ ',' :: (b' ++ (cs' ++ rest))) = ',' :: (b' ++ (cs' ++ rest)) :=
      skipBlanks_append hb _
    obtain ⟨a, as, rfl, ha, hbracket⟩ := hds.head
    have hskip' : skipBlanks (b' ++ (a :: as ++ rest)) = a :: as ++ rest := by
      rw [skipBlanks_append hb', List.cons_append, skipBlanks_cons ha]
    rw [List.append_assoc, List.append_assoc, List.cons_append, List.append_assoc, Json.items,
      hread]
    simp only [hskip, hskip']
    -- the comma is not followed by the closing bracket
    split
    · next heq => exact absurd (List.cons.inj heq).1 hbracket
    · rw [hitems]

/-- The first key and its value are read, then what separates them from the next member
or ends the object, then the others. -/
theorem Complete.members_succ {fuel : Nat} (h : Complete fuel) (depth : Nat)
    (ms : List (Document × Document)) (cs rest : List Char) (hms : MembersSpelled depth ms cs)
    (hfuel : 2 * cs.length ≤ fuel + 1) :
    Json.members (fuel + 1) depth (cs ++ rest) = (ms, some rest) := by
  cases hms with
  | @last _ ps d ks b₁ b₂ cs b₃ hk hb₁ hb₂ hd hb₃ =>
    simp only [List.length_append, List.length_cons] at hfuel
    have hstops : Stops (b₃ ++ '}' :: rest) := (stops_cons (by decide) rest).append hb₃
    have hread := h.value _ _ _ _ hd (by omega) hstops
    have hcolon : skipBlanks (b₁ ++ ':' :: (b₂ ++ (cs ++ (b₃ ++ '}' :: rest))))
        = ':' :: (b₂ ++ (cs ++ (b₃ ++ '}' :: rest))) := skipBlanks_append hb₁ _
    have hbrace : skipBlanks (b₃ ++ '}' :: rest) = '}' :: rest := skipBlanks_append hb₃ _
    simp only [List.append_assoc, List.cons_append, List.nil_append]
    rw [Json.members, scanText_append hk]
    simp only [hcolon, skipBlanks_spelled hb₂ hd, hread, hbrace]
  | @next _ ps d ms ks b₁ b₂ cs b₃ b₄ cs' hk hb₁ hb₂ hd hb₃ hb₄ hms =>
    simp only [List.length_append, List.length_cons] at hfuel
    have hstops : Stops (b₃ ++ ',' :: (b₄ ++ '"' :: (cs' ++ rest))) :=
      (stops_cons (by decide) _).append hb₃
    have hread := h.value _ _ _ _ hd (by omega) hstops
    have hmembers := h.members _ _ _ rest hms (by omega)
    have hcolon : skipBlanks
          (b₁ ++ ':' :: (b₂ ++ (cs ++ (b₃ ++ ',' :: (b₄ ++ '"' :: (cs' ++ rest))))))
        = ':' :: (b₂ ++ (cs ++ (b₃ ++ ',' :: (b₄ ++ '"' :: (cs' ++ rest))))) :=
      skipBlanks_append hb₁ _
    have hcomma : skipBlanks (b₃ ++ ',' :: (b₄ ++ '"' :: (cs' ++ rest)))
        = ',' :: (b₄ ++ '"' :: (cs' ++ rest)) := skipBlanks_append hb₃ _
    have hquote : skipBlanks (b₄ ++ '"' :: (cs' ++ rest)) = '"' :: (cs' ++ rest) :=
      skipBlanks_append hb₄ _
    simp only [List.append_assoc, List.cons_append]
    rw [Json.members, scanText_append hk]
    simp only [hcolon, skipBlanks_spelled hb₂ hd, hread, hcomma, hquote, hmembers]

/-- Two steps for every character are enough, whatever the text. -/
theorem complete (fuel : Nat) : Complete fuel := by
  induction fuel with
  | zero =>
    -- every text has at least one character
    refine ⟨fun _ _ cs _ h hfuel => ?_, fun _ _ cs _ h hfuel => ?_, fun _ _ cs _ h hfuel => ?_⟩
    · obtain ⟨a, as, rfl, -⟩ := h.head
      cases hfuel
    · obtain ⟨a, as, rfl, -⟩ := h.head
      cases hfuel
    · have hne : cs ≠ [] := by cases h <;> simp
      exact absurd (List.length_eq_zero_iff.mp (by omega)) hne
  | succ fuel ih => exact ⟨ih.value_succ, ih.items_succ, ih.members_succ⟩

/-! ## What is read is spelled -/

/-- Given so many steps, what is read is spelled by the characters that have been
taken off the text. -/
structure Sound (fuel : Nat) : Prop where
  value : ∀ depth cs d rest, value fuel depth cs = (d, some rest) →
    ∃ ts, Spelled depth d ts ∧ cs = ts ++ rest
  items : ∀ depth cs ds rest, items fuel depth cs = (ds, some rest) →
    ∃ ts, ItemsSpelled depth ds ts ∧ cs = ts ++ rest
  members : ∀ depth cs ms rest, members fuel depth cs = (ms, some rest) →
    ∃ ts, MembersSpelled depth ms ts ∧ cs = ts ++ rest

/-- Two parts that have been read are the same only with the same text behind them. -/
theorem eq_of_scan_eq {α : Type} {a b : α} {cs ds : List Char} (h : (a, some cs) = (b, some ds)) :
    a = b ∧ cs = ds :=
  ⟨(Prod.mk.inj h).1, Option.some.inj (Prod.mk.inj h).2⟩

/-- What follows a word follows it in the text. -/
theorem eq_append_of_afterWord? {w cs rest : List Char} (h : afterWord? w cs = some rest) :
    cs = w ++ rest := by
  induction w generalizing cs with
  | nil => exact Option.some.inj h
  | cons c w ih =>
    rcases cs with _ | ⟨a, cs⟩
    · cases h
    · rw [afterWord?] at h
      split at h
      · next hc => rw [hc, ih h, List.cons_append]
      · cases h

/-- A word that has been read stands at the beginning of the text. -/
theorem eq_append_of_wordDocument {w cs rest : List Char} {d d' : Document}
    (h : wordDocument w d cs = (d', some rest)) : d' = d ∧ cs = w ++ rest := by
  rw [wordDocument] at h
  split at h
  · next hword =>
    obtain ⟨rfl, rfl⟩ := eq_of_scan_eq h
    exact ⟨rfl, eq_append_of_afterWord? hword⟩
  · cases h

/-- One more step reads a value only off a text that spells it. -/
theorem Sound.value_succ {fuel : Nat} (h : Sound fuel) (depth : Nat) (cs : List Char) (d : Document)
    (rest : List Char) (hread : Json.value (fuel + 1) depth cs = (d, some rest)) :
    ∃ ts, Spelled depth d ts ∧ cs = ts ++ rest := by
  rw [Json.value.eq_def] at hread
  dsimp only at hread
  -- one case for each character that a value may begin with
  split at hread
  · obtain ⟨rfl, rfl⟩ := eq_append_of_wordDocument hread
    exact ⟨_, .wordNull, rfl⟩
  · obtain ⟨rfl, rfl⟩ := eq_append_of_wordDocument hread
    exact ⟨_, .wordTrue, rfl⟩
  · obtain ⟨rfl, rfl⟩ := eq_append_of_wordDocument hread
    exact ⟨_, .wordFalse, rfl⟩
  · -- a quotation mark
    split at hread
    · next ps rest' hscan =>
      obtain ⟨rfl, rfl⟩ := eq_of_scan_eq hread
      obtain ⟨ts, hts, rfl⟩ := spelled_of_scanText hscan
      refine ⟨_, .text hts, ?_⟩
      rw [List.cons_append, List.append_assoc, List.singleton_append]
    · cases (Prod.mk.inj hread).2
  · -- a square bracket, with nothing behind it or with elements
    next cs =>
    obtain ⟨b, hb, hcs⟩ := exists_blank_skipBlanks cs
    split at hread
    · next rest' hskip =>
      obtain ⟨rfl, rfl⟩ := eq_of_scan_eq hread
      refine ⟨_, .emptyArray hb, ?_⟩
      rw [hcs, hskip, List.cons_append, List.append_assoc, List.singleton_append]
    · obtain ⟨rfl, hrest⟩ := Prod.mk.inj hread
      obtain ⟨ts, hts, hskip⟩ := h.items _ _ _ _ (Prod.ext rfl hrest)
      rw [hrest]
      refine ⟨_, .array hb hts, ?_⟩
      rw [hcs, hskip, List.cons_append, List.append_assoc]
  · -- a brace, with nothing behind it or with members
    next cs =>
    obtain ⟨b, hb, hcs⟩ := exists_blank_skipBlanks cs
    split at hread
    · next rest' hskip =>
      obtain ⟨rfl, rfl⟩ := eq_of_scan_eq hread
      refine ⟨_, .emptyObject hb, ?_⟩
      rw [hcs, hskip, List.cons_append, List.append_assoc, List.singleton_append]
    · next cs' hskip =>
      obtain ⟨rfl, hrest⟩ := Prod.mk.inj hread
      obtain ⟨ts, hts, rfl⟩ := h.members _ _ _ _ (Prod.ext rfl hrest)
      rw [hrest]
      refine ⟨_, .object hb hts, ?_⟩
      rw [hcs, hskip, List.cons_append, List.append_assoc, List.cons_append]
    · -- the first key is no text
      cases (Prod.mk.inj hread).2
  · -- anything else is a number or malformed
    split at hread
    · next n rest' hscan =>
      obtain ⟨rfl, rfl⟩ := eq_of_scan_eq hread
      obtain ⟨ts, hts, rfl⟩ := Numeral.spelled_of_scan hscan
      exact ⟨ts, .number hts, rfl⟩
    · cases (Prod.mk.inj hread).2

/-- One more step reads elements only off a text that spells them. -/
theorem Sound.items_succ {fuel : Nat} (h : Sound fuel) (depth : Nat) (cs : List Char)
    (ds : List Document) (rest : List Char)
    (hread : Json.items (fuel + 1) depth cs = (ds, some rest)) :
    ∃ ts, ItemsSpelled depth ds ts ∧ cs = ts ++ rest := by
  rw [Json.items] at hread
  split at hread
  · cases (Prod.mk.inj hread).2
  · next d rest' hvalue =>
    obtain ⟨ts, hts, rfl⟩ := h.value _ _ _ _ hvalue
    obtain ⟨b, hb, hcs⟩ := exists_blank_skipBlanks rest'
    -- a bracket or a comma, or the elements are not complete
    split at hread
    · next rest'' hskip =>
      obtain ⟨rfl, rfl⟩ := eq_of_scan_eq hread
      refine ⟨_, .last hts hb, ?_⟩
      rw [hcs, hskip, List.append_assoc, List.append_assoc, List.singleton_append]
    · next behind hskip =>
      obtain ⟨b', hb', hcs'⟩ := exists_blank_skipBlanks behind
      split at hread
      · cases (Prod.mk.inj hread).2
      · obtain ⟨rfl, hrest⟩ := Prod.mk.inj hread
        obtain ⟨ts', hts', hskip'⟩ := h.items _ _ _ _ (Prod.ext rfl hrest)
        refine ⟨_, .next hts hb hb' hts', ?_⟩
        rw [hcs, hskip, hcs', hskip']
        simp only [List.append_assoc, List.cons_append]
    · cases (Prod.mk.inj hread).2

/-- One more step reads members only off a text that spells them. -/
theorem Sound.members_succ {fuel : Nat} (h : Sound fuel) (depth : Nat) (cs : List Char)
    (ms : List (Document × Document)) (rest : List Char)
    (hread : Json.members (fuel + 1) depth cs = (ms, some rest)) :
    ∃ ts, MembersSpelled depth ms ts ∧ cs = ts ++ rest := by
  rw [Json.members] at hread
  split at hread
  · cases (Prod.mk.inj hread).2
  · next ps behind hscan =>
    obtain ⟨ks, hks, rfl⟩ := spelled_of_scanText hscan
    obtain ⟨b₁, hb₁, hcolon⟩ := exists_blank_skipBlanks behind
    split at hread
    · next behind' hskip =>
      obtain ⟨b₂, hb₂, hbehind⟩ := exists_blank_skipBlanks behind'
      split at hread
      · cases (Prod.mk.inj hread).2
      · next d rest' hvalue =>
        obtain ⟨ts, hts, hskip'⟩ := h.value _ _ _ _ hvalue
        obtain ⟨b₃, hb₃, hcs⟩ := exists_blank_skipBlanks rest'
        -- a brace, or a comma and a quotation mark, or the members are not complete
        split at hread
        · next rest'' hbrace =>
          obtain ⟨rfl, rfl⟩ := eq_of_scan_eq hread
          refine ⟨_, .last hks hb₁ hb₂ hts hb₃, ?_⟩
          rw [hcolon, hskip, hbehind, hskip', hcs, hbrace]
          simp only [List.append_assoc, List.cons_append, List.nil_append]
        · next behind'' hcomma =>
          obtain ⟨b₄, hb₄, hnext⟩ := exists_blank_skipBlanks behind''
          split at hread
          · next tail hquote =>
            obtain ⟨rfl, hrest⟩ := Prod.mk.inj hread
            obtain ⟨ts', hts', rfl⟩ := h.members _ _ _ _ (Prod.ext rfl hrest)
            refine ⟨_, .next hks hb₁ hb₂ hts hb₃ hb₄ hts', ?_⟩
            rw [hcolon, hskip, hbehind, hskip', hcs, hcomma, hnext, hquote]
            simp only [List.append_assoc, List.cons_append]
          · cases (Prod.mk.inj hread).2
        · cases (Prod.mk.inj hread).2
    · cases (Prod.mk.inj hread).2

/-- Nothing is read that is not spelled, however many steps there are. -/
theorem sound (fuel : Nat) : Sound fuel := by
  induction fuel with
  | zero =>
    refine ⟨fun _ _ _ _ h => ?_, fun _ _ _ _ h => ?_, fun _ _ _ _ h => ?_⟩
    · cases (Prod.mk.inj h).2
    · cases (Prod.mk.inj h).2
    · cases (Prod.mk.inj h).2
  | succ fuel ih => exact ⟨ih.value_succ, ih.items_succ, ih.members_succ⟩

/-! ## Whole texts -/

/-- A text is read as a document, with nothing behind it, exactly if the document is
spelled by it, with blanks before and behind. -/
theorem parse_eq_iff (cs : List Char) (d : Document) :
    parse cs = (d, true) ↔ ∃ b ts b', Blank b ∧ Spelled 0 d ts ∧ Blank b' ∧ cs = b ++ (ts ++ b') := by
  constructor
  · intro h
    obtain ⟨rfl, hclosed⟩ := Prod.mk.inj h
    obtain ⟨rest, hrest, hempty⟩ := (Option.any_eq_true _ _).mp hclosed
    obtain ⟨ts, hts, hskip⟩ := (sound _).value _ _ _ _ (Prod.ext rfl hrest)
    obtain ⟨b, hb, hcs⟩ := exists_blank_skipBlanks cs
    obtain ⟨b', hb', hrest'⟩ := exists_blank_skipBlanks rest
    rw [List.isEmpty_iff.mp hempty, List.append_nil] at hrest'
    refine ⟨b, ts, b', hb, hts, hb', ?_⟩
    rw [← hrest', ← hskip]
    exact hcs
  · rintro ⟨b, ts, b', hb, hts, hb', rfl⟩
    have hstops : Stops b' := by
      have h := stops_nil.append hb'
      rwa [List.append_nil] at h
    have hread := (complete (2 * (b ++ (ts ++ b')).length + 2)).value 0 d ts b' hts
      (by rw [List.length_append, List.length_append]; omega) hstops
    have hempty : skipBlanks b' = [] := by
      have h := skipBlanks_append hb' []
      rwa [List.append_nil] at h
    rw [parse, skipBlanks_spelled hb hts, hread]
    exact Prod.ext rfl (congrArg List.isEmpty hempty)

end Json

end LoadTest
