/-
The shapes of property values.

A property value is written without saying which of its five shapes it has, so a
reader has to try them in turn. The trials never get in each other's way but in
one place: the first shape that fits is the one that the content was written
from, and only the array without elements is written from two. Reading and
writing are therefore inverse to each other, up to the table without rows
(`PropertyValue.shapes_are_told_apart`).

The case that takes an argument is that of arrays. Elements are read one by one
as texts or as rows; `mapM_eq_some_iff` turns both into the equation that says
what the elements have been written from, and no text is a row.
-/
import LoadTest.Proofs.Document.Holds
import LoadTest.Proofs.Element.Document

set_option autoImplicit false

namespace LoadTest

/-- The contents that are property values: texts, integers of 64 bits with sign,
truth values, arrays of texts, and arrays of pairs of texts with at least one pair. -/
inductive Json.Content.IsProperty : Json.Content → Prop
  | text (s : String) : IsProperty (.text s)
  | integer {n : Int} (h : Int64.minValue.toInt ≤ n ∧ n ≤ Int64.maxValue.toInt) :
      IsProperty (.integer n)
  | bool (b : Bool) : IsProperty (.bool b)
  | list (items : List String) : IsProperty (.array (items.map .text))
  | table {rows : List (String × String)} (h : rows ≠ []) :
      IsProperty (.array (rows.map fun r => .array [.text r.1, .text r.2]))

namespace PropertyValue

open Json (Content)

/-- An integer of 64 bits is written as itself. -/
theorem content_integer {n : Int} (h : Int64.minValue.toInt ≤ n ∧ n ≤ Int64.maxValue.toInt) :
    (integer (Int64.ofInt n)).toJson.content = .integer n := by
  have hmax : Int64.maxValue.toInt < 2 ^ 63 := by decide
  have hback : (Int64.ofInt n).toInt = n :=
    Int64.toInt_ofInt_of_le h.1 (Int.lt_of_le_of_lt h.2 hmax)
  rw [toJson, hback]
  rfl

/-! ## Elements -/

/-- Elements that are read one by one are those that have been written. -/
theorem mapM_eq_some_iff {α : Type} {read : Document → Option α} {write : α → Content}
    (h : ∀ c a, read c.document = some a ↔ c = write a) (cs : List Content) (as : List α) :
    (Content.documents cs).mapM read = some as ↔ cs = as.map write := by
  induction cs generalizing as with
  | nil =>
    cases as with
    | nil => simp [Content.documents]
    | cons a as => simp [Content.documents]
  | cons c cs ih =>
    rw [Content.documents, List.mapM_cons, Option.bind_eq_bind, Option.bind_eq_some_iff]
    simp only [Option.bind_eq_bind, Option.bind_eq_some_iff, h, ih, Option.pure_def,
      Option.some.injEq]
    constructor
    · rintro ⟨a, rfl, as, rfl, rfl⟩
      rfl
    · -- what has been written has as many elements as have been read
      intro hcs
      obtain ⟨a, as, rfl, hc, hcs⟩ := List.map_eq_cons_iff.mp hcs.symm
      exact ⟨a, hc.symm, as, hcs.symm, rfl⟩

theorem textOf?_eq_some_iff (c : Content) (s : String) :
    textOf? c.document = some s ↔ c = .text s := by
  cases c <;> simp [Content.document, textOf?]

/-- The content of a row. -/
def rowContent (r : String × String) : Content := .array [.text r.1, .text r.2]

/-- A row is found exactly in an array of two texts. -/
theorem rowOf?_eq_some_iff (c : Content) (r : String × String) :
    rowOf? c.document = some r ↔ c = rowContent r := by
  constructor
  · intro h
    unfold rowOf? at h
    split at h
    · next a b closed hc =>
      -- the elements of a content are always complete
      have hclosed : closed = true := by
        cases c <;> simp_all [Content.document]
      obtain rfl := Option.some.inj h
      exact Content.document_injective (by rw [hc, hclosed]; rfl)
    · cases h
  · rintro rfl
    rfl

/-! ## Values -/

/-- The text of a list stands for an array of texts. -/
theorem content_list (items : List String) :
    (list items).toJson.content = .array (items.map .text) := by
  simp only [toJson, Json.content, Json.contentItems_eq_map, List.map_map]
  rfl

/-- The text of a table stands for an array of rows. -/
theorem content_table (rows : List (String × String)) :
    (table rows).toJson.content = .array (rows.map rowContent) := by
  simp only [toJson, Json.content, Json.contentItems_eq_map, List.map_map]
  rfl

/-- What the text of a property is taken in as is what it stands for. -/
theorem settled_eq (v : PropertyValue) : v.settled = v.toJson.content.document := by
  cases v with
  | list items =>
    simp only [content_list, Content.document, Content.documents_eq_map, List.map_map]
    rfl
  | table rows =>
    simp only [content_table, Content.document, Content.documents_eq_map, List.map_map]
    rfl
  | _ => rfl

/-- What an array is read as: texts if all elements are, and rows otherwise. -/
theorem ofDocument?_array_eq_some_iff (cs : List Content) (v : PropertyValue) :
    ofDocument? (Content.array cs).document = some v ↔
      (∃ items, v = list items ∧ cs = items.map .text)
      ∨ ∃ rows, v = table rows ∧ rows ≠ [] ∧ cs = rows.map rowContent := by
  have htexts := mapM_eq_some_iff textOf?_eq_some_iff cs
  have hrows := mapM_eq_some_iff rowOf?_eq_some_iff cs
  cases ht : (Content.documents cs).mapM textOf? with
  | some items =>
    have hcs := (htexts items).mp ht
    have hof : ofDocument? (Content.array cs).document = some (list items) := by
      simp [Content.document, ofDocument?, ht]
    rw [hof, Option.some_inj]
    constructor
    · rintro rfl
      exact .inl ⟨items, rfl, hcs⟩
    · rintro (⟨items', rfl, hcs'⟩ | ⟨rows, rfl, hne, hcs'⟩)
      · rw [(htexts items').mpr hcs', Option.some_inj] at ht
        rw [ht]
      · -- the first element is no text and a row at once
        obtain ⟨r, rows, rfl⟩ := List.exists_cons_of_ne_nil hne
        rw [hcs', List.map_cons] at hcs
        obtain ⟨s, -, -, hs, -⟩ := List.map_eq_cons_iff.mp hcs.symm
        cases hs
  | none =>
    have hof : ofDocument? (Content.array cs).document
        = ((Content.documents cs).mapM rowOf?).map table := by
      simp [Content.document, ofDocument?, ht]
    rw [hof, Option.map_eq_some_iff]
    constructor
    · rintro ⟨rows, hr, rfl⟩
      refine .inr ⟨rows, rfl, ?_, (hrows rows).mp hr⟩
      rintro rfl
      rw [(htexts []).mpr ((hrows []).mp hr)] at ht
      cases ht
    · rintro (⟨items, rfl, hcs⟩ | ⟨rows, rfl, -, hcs⟩)
      · rw [(htexts items).mpr hcs] at ht
        cases ht
      · exact ⟨rows, (hrows rows).mpr hcs, rfl⟩

/-- A content is read as the value that it was written from, if that is not the
table without rows. -/
theorem ofDocument?_eq_some_iff (c : Content) (v : PropertyValue) :
    ofDocument? c.document = some v ↔ c = v.toJson.content ∧ v ≠ table [] := by
  constructor
  · intro h
    cases c with
    | text s =>
      obtain rfl := Option.some.inj h
      exact ⟨rfl, by simp⟩
    | bool b =>
      obtain rfl := Option.some.inj h
      exact ⟨rfl, by simp⟩
    | integer n =>
      simp only [Content.document, ofDocument?] at h
      split at h
      · next hrange =>
        obtain rfl := Option.some.inj h
        exact ⟨(content_integer hrange).symm, by simp⟩
      · cases h
    | array cs =>
      obtain ⟨items, rfl, rfl⟩ | ⟨rows, rfl, hne, rfl⟩ :=
        (ofDocument?_array_eq_some_iff cs v).mp h
      · exact ⟨(content_list items).symm, by simp⟩
      · exact ⟨(content_table rows).symm, fun h => hne (table.inj h)⟩
    | null | float | object => cases h
  · rintro ⟨rfl, hv⟩
    rw [← settled_eq, ofDocument?_settled, (normal_eq_self_iff v).mpr hv]

/-- A content is read as a property by its shape. -/
theorem read_document (c : Content) (v : PropertyValue) :
    read c.document = .ok v ↔ ofDocument? c.document = some v := by
  rw [read, c.settle_document]
  simp only [bind, Except.bind]
  split
  · next hv => simp [hv, pure, Except.pure]
  · next hv => simp [hv, Decoded.misfit]

/-- A content has the shape of a property exactly if it is printed for one, other than
an empty table. -/
theorem isProperty_iff (c : Content) :
    c.IsProperty ↔ ∃ v, c = v.toJson.content ∧ v ≠ table [] := by
  constructor
  · rintro (s | @⟨n, h⟩ | b | items | @⟨rows, h⟩)
    · exact ⟨text s, rfl, by simp⟩
    · exact ⟨integer (Int64.ofInt n), (content_integer h).symm, by simp⟩
    · exact ⟨bool b, rfl, by simp⟩
    · exact ⟨list items, (content_list items).symm, by simp⟩
    · exact ⟨table rows, (content_table rows).symm, fun heq => h (table.inj heq)⟩
  · rintro ⟨v, rfl, hv⟩
    cases v with
    | text s => exact .text s
    | integer n => exact .integer ⟨n.minValue_le_toInt, n.toInt_le⟩
    | bool b => exact .bool b
    | list items =>
      rw [content_list]
      exact .list items
    | table rows =>
      rw [content_table]
      exact .table fun h => hv (congrArg table h)

/-! ## Texts -/

/-- The rows of a table stand deepest. -/
theorem moderate_toJson (v : PropertyValue) : v.toJson.Moderate 2 := by
  cases v with
  | text s => exact ⟨trivial, Nat.zero_le 2⟩
  | integer n => exact ⟨Json.fitsWord_int64 n, Nat.zero_le 2⟩
  | bool b => exact ⟨trivial, Nat.zero_le 2⟩
  | list items =>
    refine Json.moderate_array.mpr (List.forall_mem_map.mpr fun s _ => ?_)
    exact ⟨trivial, Nat.zero_le 1⟩
  | table rows =>
    refine Json.moderate_array.mpr (List.forall_mem_map.mpr fun r _ => ?_)
    exact ⟨⟨trivial, trivial, trivial⟩, Nat.le_refl 1⟩

/-- What is printed for a property is read as its normal form. -/
theorem read_content (v : PropertyValue) : read v.toJson.content.document = .ok v.normal := by
  rw [read_document, ← settled_eq, ofDocument?_settled]

/-- A value is read from every document that holds it. -/
theorem reads (v : PropertyValue) : Document.Reads read v.toJson v.normal := by
  intro d hd
  have hcontent := v.read_content
  rw [read, Content.settle_document] at hcontent
  rw [read, Document.settle_of_holds hd v.moderate_toJson.1]
  exact hcontent

/-- Whatever text is read as a property value stands for a content. -/
theorem exists_denotes_of_decode {s : String} {v : PropertyValue}
    (h : Json.decode read s = .ok v) :
    ∃ c, Json.Denotes s c ∧ read c.document = .ok v := by
  -- the reader begins with taking the text in as a whole
  obtain ⟨v', hread, hclosed⟩ := Decoded.bind_eq_ok.mp h
  obtain ⟨d, hsettle, -⟩ := Decoded.bind_eq_ok.mp hread
  obtain ⟨⟨⟩, hclosed, -⟩ := Decoded.bind_eq_ok.mp hclosed
  have hdecode : Json.decode Document.settle s = .ok d := by
    rw [Json.decode]
    exact Decoded.bind_eq_ok.mpr ⟨d, hsettle, Decoded.bind_eq_ok.mpr ⟨(), hclosed, rfl⟩⟩
  obtain ⟨c, hc, -⟩ := Json.exists_denotes hdecode
  refine ⟨c, hc, ?_⟩
  rw [← hc.decode read, h]

/-- A content is read as a property value if and only if it is a text, an integer
of 64 bits, a truth value, an array of texts, or an array of at least one pair of
texts; it is then the content that the value is written as. Every value is read
back from its own text, but a table without rows as the list without items. And
a text is read as what its content is read as: if there is none, not at all. -/
theorem shapes_are_told_apart :
    (∀ c : Content, (∃ v, read c.document = .ok v) ↔ c.IsProperty)
    ∧ (∀ (c : Content) (v : PropertyValue),
        read c.document = .ok v ↔ c = v.toJson.content ∧ v ≠ table [])
    ∧ (∀ v : PropertyValue,
        Json.decode read v.toJson.print = .ok (if v = table [] then list [] else v))
    ∧ ∀ (s : String) (v : PropertyValue),
        Json.decode read s = .ok v ↔ ∃ c, Json.Denotes s c ∧ read c.document = .ok v := by
  have hread (c : Content) (v : PropertyValue) :
      read c.document = .ok v ↔ c = v.toJson.content ∧ v ≠ table [] :=
    (read_document c v).trans (ofDocument?_eq_some_iff c v)
  refine ⟨fun c => ?_, hread, fun v => ?_, fun s v => ⟨exists_denotes_of_decode, ?_⟩⟩
  · rw [isProperty_iff]
    exact exists_congr fun v => hread c v
  · have hdenotes : Json.Denotes v.toJson.print v.toJson.content :=
      Document.denotes_print v.moderate_toJson.1
        (Nat.le_trans v.moderate_toJson.2 (by decide : 2 ≤ Json.maxDepth))
    rw [hdenotes.decode, read_content]
    split
    · next hv => rw [hv]; rfl
    · next hv => rw [(normal_eq_self_iff v).mpr hv]
  · rintro ⟨c, hc, hv⟩
    rw [hc.decode, hv]

end PropertyValue

end LoadTest
