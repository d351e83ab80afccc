/-
What JSON texts stand for.

`Json` has the values that are printed here. A text that comes from elsewhere may
also have numbers with a fraction, blanks, escapes and repeated keys, so the
value of a text is of a type of its own, `Json.Content`. A text denotes a content
if it is parsed into the document of that content, with nothing barred and
nothing malformed in it: it is well formed, it nests no more than 127 arrays and
objects, and its numbers are finite and its texts whole characters.

`exists_denotes` says that this is no more than what it takes to take the text in
as a whole: whenever that succeeds, there is a content. A text that is taken in is
well formed, so the induction is on how it is spelled.
-/
import LoadTest.Proofs.Json.Value

set_option autoImplicit false

namespace LoadTest

namespace Json

/-- A value that a text may stand for. -/
inductive Content where
  | null
  | bool (b : Bool)
  | integer (n : Int)
  /-- A number with a fraction or an exponent, or an integer of more than 64 bits. -/
  | float (x : Binary64)
  | text (s : String)
  | array (items : List Content)
  | object (members : List (String × Content))

namespace Content

instance : Inhabited Content := ⟨null⟩

mutual
/-- The content as a document. -/
def document : Content → Document
  | null => .null
  | bool b => .bool b
  | integer n => .integer n
  | float x => .float x
  | text s => .text s
  | array items => .sequence (documents items) true
  | object members => .map (memberDocuments members) true

/-- The documents of elements. -/
def documents : List Content → List Document
  | [] => []
  | c :: cs => document c :: documents cs

/-- The documents of members. -/
def memberDocuments : List (String × Content) → List (Document × Document)
  | [] => []
  | (k, c) :: ms => (.text k, document c) :: memberDocuments ms
end

theorem documents_eq_map (cs : List Content) : documents cs = cs.map document := by
  induction cs with
  | nil => rfl
  | cons c cs ih => rw [documents, ih, List.map_cons]

theorem memberDocuments_eq_map (ms : List (String × Content)) :
    memberDocuments ms = ms.map fun m => (.text m.1, m.2.document) := by
  induction ms with
  | nil => rfl
  | cons m ms ih => rw [memberDocuments, ih, List.map_cons]

theorem memberDocuments_append (ms ms' : List (String × Content)) :
    memberDocuments (ms ++ ms') = memberDocuments ms ++ memberDocuments ms' := by
  simp only [memberDocuments_eq_map, List.map_append]

/-- What holds of a content as soon as it holds of its elements, or of the
contents of its members, holds of every content. -/
@[induction_eliminator]
theorem induction {motive : Content → Prop} (null : motive .null) (bool : ∀ b, motive (.bool b))
    (integer : ∀ n, motive (.integer n)) (float : ∀ x, motive (.float x))
    (text : ∀ s, motive (.text s))
    (array : ∀ items, (∀ c ∈ items, motive c) → motive (.array items))
    (object : ∀ members, (∀ m ∈ members, motive m.2) → motive (.object members)) (c : Content) :
    motive c := by
  refine @Content.rec motive (fun items => ∀ c ∈ items, motive c)
    (fun members => ∀ m ∈ members, motive m.2) (fun m => motive m.2)
    null bool integer float text array object ?_ ?_ ?_ ?_ ?_ c
  · intro c hc
    exact absurd hc List.not_mem_nil
  · intro c items hc hitems
    exact List.forall_mem_cons.mpr ⟨hc, hitems⟩
  · intro m hm
    exact absurd hm List.not_mem_nil
  · intro m members hm hmembers
    exact List.forall_mem_cons.mpr ⟨hm, hmembers⟩
  · intro k c hc
    exact hc

theorem eq_of_map_eq {α β : Type} {f : α → β} {as as' : List α}
    (h : ∀ a ∈ as, ∀ a', f a = f a' → a = a') (heq : as.map f = as'.map f) : as = as' := by
  induction as generalizing as' with
  | nil => exact (List.map_eq_nil_iff.mp heq.symm).symm
  | cons a as ih =>
    rw [List.map_cons] at heq
    obtain ⟨a', rest, rfl, ha, hrest⟩ := List.map_eq_cons_iff.mp heq.symm
    rw [List.forall_mem_cons] at h
    rw [h.1 a' ha.symm, ih h.2 hrest.symm]

/-- Different contents have different documents. -/
theorem document_injective : Function.Injective document := by
  intro c
  induction c with
  | array items ih =>
    intro c' h
    cases c' with
    | array items' =>
      simp only [document, documents_eq_map, Document.sequence.injEq, and_true] at h
      rw [eq_of_map_eq ih h]
    | _ => simp [document] at h
  | object members ih =>
    intro c' h
    cases c' with
    | object members' =>
      simp only [document, memberDocuments_eq_map, Document.map.injEq, and_true] at h
      rw [eq_of_map_eq _ h]
      intro m hm m' heq
      simp only [Prod.mk.injEq, Document.text.injEq] at heq
      exact Prod.ext heq.1 (ih m hm heq.2)
    | _ => simp [document] at h
  | _ =>
    intro c' h
    cases c' <;> simp_all [document]

/-! ## Taking in and passing over -/

/-- Elements that are settled stay as they are. -/
theorem settleItems_documents {cs : List Content}
    (h : ∀ c ∈ cs, Document.settle c.document = .ok c.document) :
    Document.settleItems (documents cs) = .ok (documents cs) := by
  induction cs with
  | nil => rfl
  | cons c cs ih =>
    rw [List.forall_mem_cons] at h
    rw [documents, Document.settleItems, h.1, ih h.2]
    rfl

/-- Members whose values are settled stay as they are, keys included. -/
theorem settleMembers_memberDocuments {ms : List (String × Content)}
    (h : ∀ m ∈ ms, Document.settle m.2.document = .ok m.2.document) :
    Document.settleMembers (memberDocuments ms) = .ok (memberDocuments ms) := by
  induction ms with
  | nil => rfl
  | cons m ms ih =>
    rw [List.forall_mem_cons] at h
    rw [memberDocuments, Document.settleMembers, h.1, ih h.2]
    rfl

/-- The document of a content is settled already. -/
theorem settle_document (c : Content) : Document.settle c.document = .ok c.document := by
  induction c with
  | array items ih =>
    rw [document, Document.settle, settleItems_documents ih]
    rfl
  | object members ih =>
    rw [document, Document.settle, settleMembers_memberDocuments ih]
    rfl
  | _ => rfl

/-- A content can be passed over. -/
theorem pass_document (c : Content) : Document.pass c.document = .ok () := by
  induction c with
  | array items ih =>
    have hitems : Document.passItems (documents items) = .ok () := by
      induction items with
      | nil => rfl
      | cons c cs ihs =>
        rw [List.forall_mem_cons] at ih
        rw [documents, Document.passItems, ih.1, ihs ih.2]
        rfl
    rw [document, Document.pass, hitems]
    rfl
  | object members ih =>
    have hmembers : Document.passMembers (memberDocuments members) = .ok () := by
      induction members with
      | nil => rfl
      | cons m ms ihs =>
        rw [List.forall_mem_cons] at ih
        rw [memberDocuments, Document.passMembers, ih.1, ihs ih.2]
        rfl
    rw [document, Document.pass, hmembers]
    rfl
  | _ => rfl

end Content

/-! ## Texts -/

/-- The text is well formed, can be read in full, and stands for the content. -/
def Denotes (s : String) (c : Content) : Prop := parse s.toList = (c.document, true)

/-- A text denotes a content exactly if it spells its document, with blanks before
and behind. -/
theorem denotes_iff (s : String) (c : Content) :
    Denotes s c ↔ ∃ b ts b', Blank b ∧ Spelled 0 c.document ts ∧ Blank b'
      ∧ s.toList = b ++ (ts ++ b') :=
  parse_eq_iff s.toList c.document

example : Denotes " [1,\t\x7b\"\\u0061\" : -2\x7d]\n"
    (.array [.integer 1, .object [("a", .integer (-2))]]) :=
  rfl

/-- A text denotes no more than one content. -/
theorem Denotes.unique {s : String} {c c' : Content} (h : Denotes s c) (h' : Denotes s c') :
    c = c' :=
  Content.document_injective (Prod.mk.inj (h.symm.trans h')).1

/-- Reading a text is reading what it denotes. -/
theorem Denotes.decode {s : String} {c : Content} (h : Denotes s c) {α : Type}
    (read : Document → Decoded α) : decode read s = read c.document := by
  rw [Json.decode, h]
  exact bind_pure _

/-! ## What can be taken in -/

section Settle

variable {d d' : Document} {ds ds' : List Document} {closed : Bool}

/-- What can be taken in has not been barred: at its level it is what it is elsewhere. -/
theorem settle_atDepth {depth : Nat} (h : (atDepth depth d).settle = .ok d') :
    atDepth depth d = d ∧ d.settle = .ok d' := by
  unfold atDepth at h ⊢
  split at h
  · next hdepth => exact ⟨if_pos hdepth, h⟩
  · cases h

theorem closed_of_requireClosed (h : Document.requireClosed closed = .ok ()) : closed = true := by
  cases closed with
  | true => rfl
  | false => cases h

/-- A sequence that can be taken in has elements that can. -/
theorem settle_sequence (h : (Document.sequence ds closed).settle = .ok d') :
    ∃ ds', Document.settleItems ds = .ok ds' := by
  rw [Document.settle, Decoded.bind_eq_ok] at h
  obtain ⟨ds', hds, -⟩ := h
  exact ⟨ds', hds⟩

/-- A map that can be taken in has members that can. -/
theorem settle_map {ms : List (Document × Document)}
    (h : (Document.map ms closed).settle = .ok d') :
    ∃ ms', Document.settleMembers ms = .ok ms' := by
  rw [Document.settle, Decoded.bind_eq_ok] at h
  obtain ⟨ms', hms, -⟩ := h
  exact ⟨ms', hms⟩

/-- Elements can be taken in only if the first can and the others can. -/
theorem settleItems_cons (h : Document.settleItems (d :: ds) = .ok ds') :
    (∃ d', d.settle = .ok d') ∧ ∃ ds', Document.settleItems ds = .ok ds' := by
  rw [Document.settleItems, Decoded.bind_eq_ok] at h
  obtain ⟨d', hd, h⟩ := h
  obtain ⟨ds', hds, -⟩ := Decoded.bind_eq_ok.mp h
  exact ⟨⟨d', hd⟩, ⟨ds', hds⟩⟩

/-- Members can be taken in only if the first key and the first value can and the others
can. -/
theorem settleMembers_cons {k : Document} {ms ms' : List (Document × Document)}
    (h : Document.settleMembers ((k, d) :: ms) = .ok ms') :
    (∃ k', k.settle = .ok k') ∧ (∃ d', d.settle = .ok d')
      ∧ ∃ ms', Document.settleMembers ms = .ok ms' := by
  rw [Document.settleMembers, Decoded.bind_eq_ok] at h
  obtain ⟨k', hk, h⟩ := h
  obtain ⟨d', hd, h⟩ := Decoded.bind_eq_ok.mp h
  obtain ⟨ms', hms, -⟩ := Decoded.bind_eq_ok.mp h
  exact ⟨⟨k', hk⟩, ⟨d', hd⟩, ⟨ms', hms⟩⟩

/-- A text that can be taken in has all its surrogates in pairs. -/
theorem textDocument_of_settle {ps : List Piece} (h : (textDocument ps).settle = .ok d) :
    ∃ s, textDocument ps = .text s := by
  unfold textDocument at h ⊢
  split at h
  · exact ⟨_, rfl⟩
  · cases h

/-- A number is an integer, a float, or barred. -/
theorem toDocument_cases (n : Numeral) :
    (∃ m, n.toDocument = .integer m) ∨ (∃ x, n.toDocument = .float x)
      ∨ ∃ x, n.toDocument = .barred .malformed (.float x) := by
  let x := Numeral.magnitude (Numeral.gather 0 n.whole).1 (Numeral.gather 0 n.whole).2.length n
  have hfloat : (if x.isFinite then .float (if n.negative then x.neg else x)
      else .barred .malformed (.float x) : Document) = n.toDocument →
        (∃ m, n.toDocument = .integer m) ∨ (∃ x, n.toDocument = .float x)
          ∨ ∃ x, n.toDocument = .barred .malformed (.float x) := by
    intro h
    rw [← h]
    split
    · exact .inr (.inl ⟨_, rfl⟩)
    · exact .inr (.inr ⟨_, rfl⟩)
  by_cases hpart : n.part.isSome ∨ n.exponent.isSome ∨ (Numeral.gather 0 n.whole).2 ≠ []
  · exact hfloat (if_pos hpart).symm
  · by_cases hnegative : n.negative = true
    · by_cases hfits : 0 < (Numeral.gather 0 n.whole).1
          ∧ Int64.minValue.toInt ≤ -((Numeral.gather 0 n.whole).1 : Int)
      · exact .inl ⟨_, (if_neg hpart).trans ((if_pos hnegative).trans (if_pos hfits))⟩
      · exact hfloat ((if_neg hpart).trans ((if_pos hnegative).trans (if_neg hfits))).symm
    · exact .inl ⟨_, (if_neg hpart).trans (if_neg hnegative)⟩

/-- A number that can be taken in is finite. -/
theorem toDocument_of_settle {n : Numeral} (h : n.toDocument.settle = .ok d) :
    ∃ c : Content, n.toDocument = c.document := by
  rcases toDocument_cases n with ⟨m, hm⟩ | ⟨x, hx⟩ | ⟨x, hx⟩
  · exact ⟨.integer m, hm⟩
  · exact ⟨.float x, hx⟩
  · rw [hx] at h
    cases h

end Settle

/-! ## What can be taken in is a content -/

mutual
/-- A document that is spelled by a text and can be taken in is that of a content. -/
theorem Spelled.exists_content {depth : Nat} {d d' : Document} {cs : List Char} :
    Spelled depth d cs → d.settle = .ok d' → ∃ c : Content, d = c.document
  | .wordNull, _ => ⟨.null, rfl⟩
  | .wordTrue, _ => ⟨.bool true, rfl⟩
  | .wordFalse, _ => ⟨.bool false, rfl⟩
  | .number _, h => toDocument_of_settle h
  | .text _, h => by
    obtain ⟨s, hs⟩ := textDocument_of_settle h
    exact ⟨.text s, hs⟩
  | .emptyArray _, h => ⟨.array [], (settle_atDepth h).1⟩
  | .array _ hds, h => by
    obtain ⟨hdepth, h⟩ := settle_atDepth h
    obtain ⟨ds', h⟩ := settle_sequence h
    obtain ⟨is, rfl⟩ := hds.exists_contents h
    exact ⟨.array is, hdepth⟩
  | .emptyObject _, h => ⟨.object [], (settle_atDepth h).1⟩
  | .object _ hms, h => by
    obtain ⟨hdepth, h⟩ := settle_atDepth h
    obtain ⟨ms', h⟩ := settle_map h
    obtain ⟨ms, rfl⟩ := hms.exists_contents h
    exact ⟨.object ms, hdepth⟩

/-- Elements that can be taken in are those of an array. -/
theorem ItemsSpelled.exists_contents {depth : Nat} {ds ds' : List Document} {cs : List Char} :
    ItemsSpelled depth ds cs → Document.settleItems ds = .ok ds' →
      ∃ is, ds = Content.documents is
  | .last hd _, h => by
    obtain ⟨⟨d', hd'⟩, -⟩ := settleItems_cons h
    obtain ⟨c, rfl⟩ := hd.exists_content hd'
    exact ⟨[c], rfl⟩
  | .next hd _ _ hds, h => by
    obtain ⟨⟨d', hd'⟩, ⟨ds'', hds'⟩⟩ := settleItems_cons h
    obtain ⟨c, rfl⟩ := hd.exists_content hd'
    obtain ⟨is, rfl⟩ := hds.exists_contents hds'
    exact ⟨c :: is, rfl⟩

/-- Members that can be taken in are those of an object. -/
theorem MembersSpelled.exists_contents {depth : Nat} {ms ms' : List (Document × Document)}
    {cs : List Char} : MembersSpelled depth ms cs → Document.settleMembers ms = .ok ms' →
      ∃ es, ms = Content.memberDocuments es
  | .last _ _ _ hd _, h => by
    obtain ⟨⟨k, hk⟩, ⟨d', hd'⟩, -⟩ := settleMembers_cons h
    obtain ⟨s, hs⟩ := textDocument_of_settle hk
    obtain ⟨c, rfl⟩ := hd.exists_content hd'
    exact ⟨[(s, c)], by rw [hs]; rfl⟩
  | .next _ _ _ hd _ _ hms, h => by
    obtain ⟨⟨k, hk⟩, ⟨d', hd'⟩, ⟨ms'', hms'⟩⟩ := settleMembers_cons h
    obtain ⟨s, hs⟩ := textDocument_of_settle hk
    obtain ⟨c, rfl⟩ := hd.exists_content hd'
    obtain ⟨es, rfl⟩ := hms.exists_contents hms'
    exact ⟨(s, c) :: es, by rw [hs]; rfl⟩
end

/-- A text that can be taken in as a whole denotes what is taken in. -/
theorem exists_denotes {s : String} {d : Document} (h : decode Document.settle s = .ok d) :
    ∃ c, Denotes s c ∧ d = c.document := by
  obtain ⟨d', hd, h⟩ := Decoded.bind_eq_ok.mp h
  obtain ⟨⟨⟩, hclosed, hpure⟩ := Decoded.bind_eq_ok.mp h
  have hparse : parse s.toList = ((parse s.toList).1, true) :=
    Prod.ext rfl (closed_of_requireClosed hclosed)
  obtain ⟨-, ts, -, -, hts, -⟩ := (parse_eq_iff _ _).mp hparse
  obtain ⟨c, hc⟩ := hts.exists_content hd
  refine ⟨c, hparse.trans (Prod.ext hc rfl), ?_⟩
  rw [hc, c.settle_document] at hd
  cases hd
  exact (Except.ok.inj hpure).symm

/-! ## Printed values -/

mutual
/-- The content of a printed value. -/
def content : Json → Content
  | null => .null
  | bool b => .bool b
  | integer n => .integer n
  | text s => .text s
  | array items => .array (contentItems items)
  | object members => .object (contentMembers members)

/-- The contents of elements. -/
def contentItems : List Json → List Content
  | [] => []
  | j :: js => content j :: contentItems js

/-- The contents of members. -/
def contentMembers : List (String × Json) → List (String × Content)
  | [] => []
  | (k, j) :: ms => (k, content j) :: contentMembers ms
end

theorem contentItems_eq_map (js : List Json) : contentItems js = js.map content := by
  induction js with
  | nil => rfl
  | cons j js ih => rw [contentItems, ih, List.map_cons]

theorem contentMembers_eq_map (ms : List (String × Json)) :
    contentMembers ms = ms.map fun m => (m.1, m.2.content) := by
  induction ms with
  | nil => rfl
  | cons m ms ih => rw [contentMembers, ih, List.map_cons]

theorem map_fst_contentMembers (ms : List (String × Json)) :
    (contentMembers ms).map Prod.fst = ms.map Prod.fst := by
  rw [contentMembers_eq_map, List.map_map]
  rfl

end Json

end LoadTest
