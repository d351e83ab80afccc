/-
Layouts on a single line.

Where a text has no line breaks and all of it stands within brackets, a layout
hardly changes: no block is ever open, nothing is passed between tokens, and no
key is required anywhere. What has been noted as a candidate is dropped when it
gets out of reach, and that does no harm.

`Layout.Leads` compares what the scanner finds from two places on, whatever
steps it has left; `Layout.Reaches` adds the tokens between the places.
-/
import LoadTest.Proofs.Yaml.Scalar
import LoadTest.Yaml.Tokens

set_option autoImplicit false

namespace LoadTest.Yaml

namespace Layout

/-! ## Steady layouts -/

/-- No block is open, and no key is required. -/
structure Steady (l : Layout) : Prop where
  columns : l.columns = []
  counted : l.IsCounted
  candidate : l.candidate.any (·.required) = false
  outer : ∀ k ∈ l.outer, k.any (·.required) = false

/-- The candidate, unless it is out of reach. -/
def inReach (c : Cursor) (k : Option Candidate) : Option Candidate :=
  k.filter fun k => !(decide (k.line < c.line) || decide (k.index + reach < c.index))

/-- The layout without the candidates that are out of reach. -/
def fresh (l : Layout) : Layout :=
  { l with outer := l.outer.map (inReach l.cursor), candidate := inReach l.cursor l.candidate }

/-- A candidate that is not required is dropped out of reach, which is no error. -/
theorem expire?_eq {c : Cursor} {k : Option Candidate} (hk : k.any (·.required) = false) :
    expire? c k = some (inReach c k) := by
  cases k with
  | none => rfl
  | some k =>
    rw [Option.any_some] at hk
    rw [expire?, inReach, Option.filter_some, hk]
    cases decide (k.line < c.line) || decide (k.index + reach < c.index) with
    | false => rfl
    | true => rfl

/-- Dropping candidates makes none of them required. -/
theorem inReach_relaxed {c : Cursor} {k : Option Candidate} (hk : k.any (·.required) = false) :
    (inReach c k).any (·.required) = false := by
  cases k with
  | none => rfl
  | some k =>
    rw [inReach, Option.filter_some]
    split
    · exact hk
    · rfl

/-- A candidate on the same line, not too far in front of a place, is in reach. -/
theorem inReach_of_near {c : Cursor} {k : Candidate} (hline : k.line = c.line)
    (hindex : c.index ≤ k.index + reach) : inReach c (some k) = some k := by
  have hsame : decide (k.line < c.line) = false := decide_eq_false (by omega)
  have hnear : decide (k.index + reach < c.index) = false := decide_eq_false (by omega)
  rw [inReach, Option.filter_some, hsame, hnear]
  rfl

/-- Candidates none of which is required are dropped out of reach, one by one. -/
theorem mapM_expire? {c : Cursor} {ks : List (Option Candidate)}
    (hks : ∀ k ∈ ks, k.any (·.required) = false) :
    ks.mapM (expire? c) = some (ks.map (inReach c)) := by
  induction ks with
  | nil => rfl
  | cons k ks ih =>
    obtain ⟨hk, hks⟩ := List.forall_mem_cons.mp hks
    rw [List.mapM_cons, expire?_eq hk, ih hks]
    rfl

namespace Steady

variable {l : Layout} (h : l.Steady)

include h

/-- In a steady layout nothing goes wrong when candidates get out of reach. -/
theorem expireAll?_eq : l.expireAll? = some l.fresh := by
  rw [expireAll?, mapM_expire? h.outer, expire?_eq h.candidate]
  rfl

/-- A steady layout is steady without the candidates that are out of reach. -/
theorem fresh : l.fresh.Steady where
  columns := h.columns
  counted := h.counted
  candidate := inReach_relaxed h.candidate
  outer := by
    rw [Layout.fresh, List.forall_mem_map]
    exact fun k hk => inReach_relaxed (h.outer k hk)

/-- In a steady layout the candidate may be given up. -/
theorem giveUp?_eq : l.giveUp? = some { l with candidate := none } := by
  rw [giveUp?, h.candidate, if_neg Bool.false_ne_true]

/-- Without open blocks, no column closes any. -/
theorem closeBlocks_eq (column : Nat) : l.closeBlocks column = l := by
  obtain ⟨c, ts, n, columns, k, ks, allowed⟩ := l
  obtain rfl : columns = [] := h.columns
  cases ks with
  | nil => rfl
  | cons k' ks => rfl

/-- Without open blocks, there is none to close. -/
theorem closeAllBlocks_eq : l.closeAllBlocks = l := by
  obtain ⟨c, ts, n, columns, k, ks, allowed⟩ := l
  obtain rfl : columns = [] := h.columns
  cases ks with
  | nil => rfl
  | cons k' ks => rfl

/-- Where a key may begin, its candidate takes the place of an earlier one. -/
theorem propose?_of_allowed (hallowed : l.keyAllowed = true) :
    l.propose? = some { l with
      candidate := some ⟨l.count, l.cursor.index, l.cursor.line, l.cursor.column, false⟩ } := by
  rw [propose?, if_pos hallowed, h.giveUp?_eq]
  obtain ⟨c, ts, n, columns, k, ks, allowed⟩ := l
  obtain rfl : columns = [] := h.columns
  cases ks with
  | nil => rfl
  | cons k' ks => rfl

/-- Whether a key may begin or not, the layout differs in its candidate at most. -/
theorem exists_propose? :
    ∃ k, l.propose? = some { l with candidate := k } ∧ k.any (·.required) = false := by
  by_cases hallowed : l.keyAllowed = true
  · refine ⟨_, h.propose?_of_allowed hallowed, ?_⟩
    rfl
  · exact ⟨l.candidate, if_neg hallowed, h.candidate⟩

end Steady

/-! ## From place to place -/

/-- A character that begins a token where it stands. -/
def IsVisible (a : Char) : Prop := IsPrinted a ∧ a ≠ ' ' ∧ a ≠ '#'

instance (a : Char) : Decidable (IsVisible a) :=
  inferInstanceAs (Decidable (IsPrinted a ∧ a ≠ ' ' ∧ a ≠ '#'))

/-- Nothing is passed in front of a token. -/
theorem skipGap_of_isVisible {l : Layout} {a : Char} {cs : List Char}
    (hrest : l.cursor.rest = a :: cs) (ha : IsVisible a) (fuel : Nat) : skipGap (fuel + 1) l = l := by
  obtain ⟨hprinted, hblank, hcomment⟩ := ha
  have hmark : skipMark l.cursor = l.cursor := by
    have hhigh := hprinted.2
    have hno : isMark a = false := beq_eq_false_iff_ne.mpr (by omega)
    rw [skipMark, hrest, List.head?_cons, Option.any_some, hno, Bool.and_false,
      if_neg Bool.false_ne_true]
  have htab : a ≠ '\t' := by
    rintro rfl
    exact absurd hprinted (by decide)
  have hpassed : l.isPassed a = false := by
    rw [isPassed, beq_eq_false_iff_ne.mpr hblank, beq_eq_false_iff_ne.mpr htab, Bool.and_false]
    rfl
  have hwhile : l.cursor.skipWhile l.isPassed = l.cursor := by
    rw [Cursor.skipWhile, hrest, List.takeWhile_cons, hpassed]
    rfl
  have hskip : l.cursor.skipComment = l.cursor := by
    have hhash : (some a == some '#') = false := beq_eq_false_iff_ne.mpr (by simpa using hcomment)
    rw [Cursor.skipComment, hrest, List.head?_cons, hhash, if_neg Bool.false_ne_true]
  rw [skipGap, hmark, hwhile, hskip, Cursor.nextLine?_of_isPrinted hrest hprinted]
  rfl

/-- However many steps there are at one place, there are as many as needed at
the other, and the same tokens are found from there. -/
def Leads (l l' : Layout) : Prop :=
  ∀ fuel, l.cursor.rest.length < fuel →
    ∃ fuel', l'.cursor.rest.length < fuel' ∧ tokens? fuel l = tokens? fuel' l'

/-- What leads to a place that leads further leads there. -/
theorem Leads.trans {l l' l'' : Layout} (h : Leads l l') (h' : Leads l' l'') : Leads l l'' := by
  intro fuel hfuel
  obtain ⟨fuel', hfuel', heq⟩ := h fuel hfuel
  obtain ⟨fuel'', hfuel'', heq'⟩ := h' fuel' hfuel'
  exact ⟨fuel'', hfuel'', heq.trans heq'⟩

/-- A token leads behind it. -/
theorem Steady.leads {l l' : Layout} {a : Char} {cs : List Char} (h : l.Steady)
    (hrest : l.cursor.rest = a :: cs) (ha : IsVisible a)
    (htoken : ∀ fuel, cs.length < fuel → l.fresh.token? (fuel + 1) a cs = some l')
    (hless : l'.cursor.rest.length ≤ cs.length) : Leads l l' := by
  intro fuel hfuel
  rw [hrest, List.length_cons] at hfuel
  obtain ⟨fuel, rfl⟩ := Nat.exists_eq_add_one.mpr (Nat.zero_lt_of_lt hfuel)
  refine ⟨fuel, by omega, ?_⟩
  have hfresh : l.fresh.cursor.rest = a :: cs := hrest
  rw [tokens?, skipGap_of_isVisible hrest ha, h.expireAll?_eq, Option.bind_eq_bind,
    Option.bind_some]
  simp only [h.fresh.closeBlocks_eq, hfresh]
  rw [htoken fuel (by omega), Option.bind_some]

/-- The scanner stands on a line, within so many brackets, in front of a text. -/
structure At (depth : Nat) (cs : List Char) (l : Layout) : Prop extends Steady l where
  depth : l.outer.length = depth
  column : 0 < l.cursor.column
  rest : l.cursor.rest = cs

/-- The tokens `ts` are found up to a place of which `P` holds. -/
def Reaches (ts : List Token) (P : Layout → Prop) (l : Layout) : Prop :=
  ∃ l', Leads l l' ∧ l'.tokens = ts.reverse ++ l.tokens ∧ P l'

/-- From place to place the tokens are put one after the other. -/
theorem Reaches.trans {l : Layout} {ts ts' : List Token} {P Q : Layout → Prop}
    (h : l.Reaches ts P) (h' : ∀ l', P l' → l'.Reaches ts' Q) : l.Reaches (ts ++ ts') Q := by
  obtain ⟨m, hm, htokens, hP⟩ := h
  obtain ⟨l', hl', htokens', hQ⟩ := h' m hP
  refine ⟨l', hm.trans hl', ?_, hQ⟩
  rw [htokens', htokens, List.reverse_append, List.append_assoc]

theorem tokens_leaveFlow (l : Layout) : l.leaveFlow.tokens = l.tokens := by
  rw [leaveFlow]
  cases l.outer with
  | nil => rfl
  | cons k ks => rfl

namespace At

variable {l : Layout} {d : Nat} {cs rest : List Char}

theorem inFlow (h : At (d + 1) cs l) : l.inFlow = true := by
  obtain ⟨k, ks, houter⟩ := List.exists_cons_of_length_eq_add_one h.depth
  rw [Layout.inFlow, houter]
  rfl

theorem fresh (h : At d cs l) : At d cs l.fresh where
  toSteady := h.toSteady.fresh
  depth := (List.length_map _).trans h.depth
  column := h.column
  rest := h.rest

/-- The place stays what it is, whatever the candidate, as long as that is not required. -/
theorem withCandidate (h : At d cs l) {k : Option Candidate} (hk : k.any (·.required) = false) :
    At d cs { l with candidate := k } where
  columns := h.columns
  counted := h.counted
  candidate := hk
  outer := h.outer
  depth := h.depth
  column := h.column
  rest := h.rest

/-- The innermost brackets are left. -/
theorem leaveFlow (h : At (d + 1) cs l) : At d cs l.leaveFlow := by
  obtain ⟨k, ks, houter⟩ := List.exists_cons_of_length_eq_add_one h.depth
  have hleave : l.leaveFlow = { l with outer := ks, candidate := k } := by
    rw [Layout.leaveFlow, houter]
  have hrelaxed := h.outer
  have hdepth := h.depth
  rw [houter, List.forall_mem_cons] at hrelaxed
  rw [houter, List.length_cons, Nat.add_right_cancel_iff] at hdepth
  rw [hleave]
  exact ⟨⟨h.columns, h.counted, hrelaxed.1, hrelaxed.2⟩, hdepth, h.column, h.rest⟩

/-- Behind a token of the same brackets. -/
theorem behind (h : At d (cs ++ rest) l) (t : Token) (allowed : Bool) :
    At d rest (((l.allowKey allowed).emit t).moveTo (l.cursor.skip cs.length)) where
  columns := h.columns
  counted := h.counted.emit t
  candidate := h.candidate
  outer := h.outer
  depth := h.depth
  column := Nat.lt_of_lt_of_le h.column (Nat.le_add_right _ _)
  rest := by
    change l.cursor.rest.drop cs.length = rest
    rw [h.rest, List.drop_left]

end At

end Layout

end LoadTest.Yaml
