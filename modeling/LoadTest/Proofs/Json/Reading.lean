/-
Readers of printed values.

A printed value is read at some depth, and it is read only if none of its
collections stands too deep. `Yields` says that of one reader and one value: what
it answers, and that beyond the last level it answers that the text is malformed,
and not that something else is wrong. The lemmas follow the readers: one for
each way in which a reader is put together from others.
-/
import LoadTest.Document.Reader
import LoadTest.Proofs.Json.Value

set_option autoImplicit false

namespace LoadTest

/-- A member that the record knows is read into its slot, if that is empty. -/
theorem RecordReader.readMember_of_empty {σ α : Type} {r : RecordReader σ α} {k : String} {i : Nat}
    {s : σ} (hk : r.members.idxOf? k = some i) (hempty : r.isSet i s = false) (d : Document) :
    r.readMember (.text k) d s = r.fill i d s := by
  have hindex : r.memberIndex? (.text k) = .ok (some i) := congrArg Except.ok hk
  rw [readMember, hindex]
  change (if r.isSet i s then _ else r.fill i d s) = _
  rw [hempty, if_neg Bool.false_ne_true]

namespace Json

variable {α β σ : Type}

/-! ## Levels -/

/-- A value that takes so many levels, if there are that many. -/
def within (levels : Nat) (a : α) : Decoded α :=
  if levels ≤ maxDepth then .ok a else .error .malformed

theorem within_of_le {levels : Nat} (h : levels ≤ maxDepth) (a : α) : within levels a = .ok a :=
  if_pos h

/-- What takes too many levels is malformed, whatever is in it. -/
theorem within_of_lt {levels : Nat} (h : maxDepth < levels) (a : α) :
    within levels a = .error .malformed :=
  if_neg (Nat.not_le.mpr h)

/-- What is made of a value takes the levels of the value. -/
theorem map_within (f : α → β) (levels : Nat) (a : α) :
    (within levels a).map f = within levels (f a) := by
  rcases Nat.lt_or_ge maxDepth levels with h | h
  · rw [within_of_lt h, within_of_lt h]
    rfl
  · rw [within_of_le h, within_of_le h]
    rfl

/-- What is read in two steps takes the levels of the deeper one. -/
theorem within_bind {m n : Nat} {a : α} {b : β} {f : α → Decoded β} (h : f a = within n b) :
    within m a >>= f = within (max m n) b := by
  rcases Nat.lt_or_ge maxDepth m with hm | hm
  · rw [within_of_lt hm, within_of_lt (Nat.lt_of_lt_of_le hm (Nat.le_max_left m n))]
    rfl
  · rw [within_of_le hm]
    -- the first step has enough levels, so the second one decides
    refine Eq.trans h ?_
    rcases Nat.lt_or_ge maxDepth n with hn | hn
    · rw [within_of_lt hn, within_of_lt (Nat.lt_of_lt_of_le hn (Nat.le_max_right m n))]
    · rw [within_of_le hn, within_of_le (Nat.max_le.mpr ⟨hm, hn⟩)]

/-- The reader gets `a` out of the text of `j`, at any depth. -/
def Yields (read : Document → Decoded α) (j : Json) (a : α) : Prop :=
  ∀ depth ≤ maxDepth, read (document depth j) = within (depth + nesting j) a

variable {read : Document → Decoded α} {j : Json} {a : α}

/-- What nests nothing can be read at every level. -/
theorem yields_of_nesting_eq_zero (hj : nesting j = 0)
    (hread : ∀ depth, read (document depth j) = .ok a) : Yields read j a := by
  intro depth hdepth
  rw [hread, hj, within_of_le]
  omega

/-- What is made of an answer is answered at the same levels. -/
theorem Yields.map (h : Yields read j a) (f : α → β) : Yields (fun d => (read d).map f) j (f a) :=
  fun depth hdepth => (congrArg (Except.map f) (h depth hdepth)).trans (map_within f _ a)

/-- What has been read is looked at once more. -/
theorem Yields.bind (h : Yields read j a) {f : α → Decoded β} {b : β} (hf : f a = .ok b) :
    Yields (fun d => read d >>= f) j b := by
  intro depth hdepth
  have hb : f a = within 0 b := hf.trans (within_of_le (Nat.zero_le _) b).symm
  calc read (document depth j) >>= f
      = within (depth + nesting j) a >>= f := by rw [h depth hdepth]
    _ = within (max (depth + nesting j) 0) b := within_bind hb
    _ = within (depth + nesting j) b := by rw [Nat.max_zero]

/-- A collection takes one level more than what is in it. -/
theorem read_atDepth {d : Document} {depth n : Nat} (hdepth : depth ≤ maxDepth)
    (hbarred : read (.barred .malformed d) = .error .malformed)
    (hread : depth + 1 ≤ maxDepth → read d = within (depth + 1 + n) a) :
    read (atDepth depth d) = within (depth + (n + 1)) a := by
  rw [atDepth]
  by_cases hlt : depth < maxDepth
  · rw [if_pos hlt, hread hlt, Nat.add_right_comm, Nat.add_assoc]
  · rw [if_neg hlt, hbarred, within_of_lt]
    omega

/-! ## Sequences and maps -/

/-- Elements are read one by one, and take the levels of the deepest of them. -/
theorem readItems_documents {js : List Json} {as : List α} (h : List.Forall₂ (Yields read) js as)
    {depth : Nat} (hdepth : depth ≤ maxDepth) :
    Document.readItems read (documents depth js) = within (depth + nestingItems js) as := by
  induction h with
  | nil =>
    rw [documents, nestingItems, within_of_le (by omega)]
    rfl
  | @cons j a js as hj _ ih =>
    -- whichever element stands too deep, the answer is the same
    have htail : (Document.readItems read (documents depth js) >>= fun as => pure (a :: as))
        = within (depth + nestingItems js) (a :: as) := by
      rw [ih]
      exact map_within (a :: ·) _ as
    rw [documents, Document.readItems, hj depth hdepth, nestingItems, ← Nat.add_max_add_left]
    exact within_bind htail

/-- A sequence that is complete is read by its elements. -/
theorem readList_sequence (ds : List Document) :
    Document.readList read (.sequence ds true) = Document.readItems read ds := by
  change (Document.readItems read ds >>= fun as => pure as) = _
  exact bind_pure _

/-- A list is read if each of its elements is. -/
theorem yields_readList {js : List Json} {as : List α} (h : List.Forall₂ (Yields read) js as) :
    Yields (Document.readList read) (.array js) as := by
  intro depth hdepth
  rw [document, nesting]
  refine read_atDepth hdepth rfl fun hlt => ?_
  rw [readList_sequence, readItems_documents h hlt]

/-- Members are read one by one under their keys, and take the levels of the deepest
value. -/
theorem readEntries_memberDocuments {ms : List (String × Json)} {es : List (String × α)}
    (h : List.Forall₂ (fun m e => m.1 = e.1 ∧ Yields read m.2 e.2) ms es) {depth : Nat}
    (hdepth : depth ≤ maxDepth) :
    Document.readEntries Document.readText read (memberDocuments depth ms)
      = within (depth + nestingMembers ms) es := by
  induction h with
  | nil =>
    rw [memberDocuments, nestingMembers, within_of_le (by omega)]
    rfl
  | @cons m e ms es hm _ ih =>
    obtain ⟨k, j⟩ := m
    obtain ⟨k', a⟩ := e
    obtain ⟨hk, hj⟩ := hm
    cases hk
    have htail : (Document.readEntries Document.readText read (memberDocuments depth ms)
        >>= fun es => pure ((k, a) :: es)) = within (depth + nestingMembers ms) ((k, a) :: es) := by
      rw [ih]
      exact map_within ((k, a) :: ·) _ es
    change (read (document depth j) >>= fun b => Document.readEntries Document.readText read
      (memberDocuments depth ms) >>= fun es => pure ((k, b) :: es)) = _
    rw [hj depth hdepth, nestingMembers, ← Nat.add_max_add_left]
    exact within_bind htail

/-- A map that is complete is read by its entries. -/
theorem readPairs_map (readKey : Document → Decoded β) (ms : List (Document × Document)) :
    Document.readPairs readKey read (.map ms true) = Document.readEntries readKey read ms := by
  change (Document.readEntries readKey read ms >>= fun es => pure es) = _
  exact bind_pure _

/-- An object is read as pairs if each of its values is. -/
theorem yields_readPairs {ms : List (String × Json)} {es : List (String × α)}
    (h : List.Forall₂ (fun m e => m.1 = e.1 ∧ Yields read m.2 e.2) ms es) :
    Yields (Document.readPairs Document.readText read) (.object ms) es := by
  intro depth hdepth
  rw [document, nesting]
  refine read_atDepth hdepth rfl fun hlt => ?_
  rw [readPairs_map, readEntries_memberDocuments h hlt]

/-! ## Taking in as a whole -/

/-- To take in elements is to read them with the reader that takes in anything. -/
theorem settleItems_eq_readItems (ds : List Document) :
    Document.settleItems ds = Document.readItems Document.settle ds := by
  induction ds with
  | nil => rfl
  | cons d ds ih => rw [Document.settleItems, Document.readItems, ih]

theorem yields_settle_text (s : String) : Yields Document.settle (.text s) (.text s) :=
  yields_of_nesting_eq_zero rfl fun _ => rfl

/-- An array is taken in if each of its elements is. -/
theorem yields_settle_array {js : List Json} {ds : List Document}
    (h : List.Forall₂ (Yields Document.settle) js ds) :
    Yields Document.settle (.array js) (.sequence ds true) := by
  intro depth hdepth
  rw [document, nesting]
  refine read_atDepth hdepth rfl fun hlt => ?_
  rw [Document.settle, settleItems_eq_readItems, readItems_documents h hlt]
  exact map_within (Document.sequence · true) _ ds

/-! ## Records -/

variable (r : RecordReader σ α)

/-- The members of a record take its slots from `s` to `s'`. -/
def Fills (ms : List (String × Json)) (s s' : σ) : Prop :=
  ∀ depth ≤ maxDepth,
    r.readMembers (memberDocuments depth ms) s = within (depth + nestingMembers ms) s'

theorem fills_nil (s : σ) : Fills r [] s s := by
  intro depth hdepth
  rw [memberDocuments, nestingMembers, within_of_le (by omega)]
  rfl

variable {r}

/-- A member fills its slot, if that is empty, and the others fill theirs behind it. -/
theorem fills_cons {k : String} {i : Nat} {ms : List (String × Json)} {s s₁ s₂ : σ}
    (hk : r.members.idxOf? k = some i) (hempty : r.isSet i s = false)
    (hfill : Yields (fun d => r.fill i d s) j s₁) (hms : Fills r ms s₁ s₂) :
    Fills r ((k, j) :: ms) s s₂ := by
  intro depth hdepth
  have hmember : r.readMember (.text k) (document depth j) s = within (depth + nesting j) s₁ :=
    (RecordReader.readMember_of_empty hk hempty _).trans (hfill depth hdepth)
  rw [memberDocuments, RecordReader.readMembers, hmember, within_bind (hms depth hdepth),
    nestingMembers, Nat.add_max_add_left]

/-- A record is read if its members fill the slots that make it up. -/
theorem yields_record (form : ArrayForm) {ms : List (String × Json)} {s : σ}
    (hms : Fills r ms r.blank s) (hfinish : r.finish s = .ok a) :
    Yields (r.read form) (.object ms) a := by
  intro depth hdepth
  rw [document, nesting]
  refine read_atDepth hdepth rfl fun hlt => ?_
  change (r.readMembers (memberDocuments (depth + 1) ms) r.blank >>= r.finish) = _
  have ha : r.finish s = within 0 a := hfinish.trans (within_of_le (Nat.zero_le _) a).symm
  rw [hms _ hlt, within_bind ha, Nat.max_zero]

/-! ## Whole texts -/

/-- A text is read if it nests no deeper than can be read, and is malformed otherwise. -/
theorem Yields.decode_print (h : Yields read j a) : decode read j.print = within (nesting j) a := by
  rw [Json.decode_print, h 0 (Nat.zero_le _), Nat.zero_add]

end Json

end LoadTest
