/-
Elements read back from their printed form.

A table without rows and a list without items are printed alike, and what is read
back is the list: that is the normal form of the value. Every other value is
read back as it was, and a map keeps its keys and their order, so an element
changes on the way only if it holds an empty table.
-/
import LoadTest.Element.Document
import LoadTest.Proofs.Json.Reading
import LoadTest.Proofs.Tree.Alike

set_option autoImplicit false

namespace LoadTest

/-! ## Maps -/

section OrderedMap

variable {α β γ : Type} [DecidableEq α]

/-- An entry under a new key goes behind the others. -/
theorem Entries.put_of_not_mem {k : α} {es : List (α × β)} (h : k ∉ es.map Prod.fst) (v : β) :
    (Entries.put k v es).2 = es ++ [(k, v)] := by
  induction es with
  | nil => rfl
  | cons e es ih =>
    rw [List.map_cons, List.mem_cons, not_or] at h
    rw [Entries.put, if_neg (Ne.symm h.1), ih h.2, List.cons_append]

theorem Entries.get?_map (f : β → γ) (k : α) (es : List (α × β)) :
    Entries.get? k (es.map fun e => (e.1, f e.2)) = (Entries.get? k es).map f := by
  induction es with
  | nil => rfl
  | cons e es ih =>
    rw [List.map_cons, Entries.get?_cons, ih]
    by_cases hk : e.1 = k
    · rw [if_pos hk, Entries.get?_cons, if_pos hk]
      rfl
    · rw [if_neg hk, Entries.get?_cons, if_neg hk]

namespace OrderedMap

/-- Entries whose keys are all new and all different go behind the others, in their
order. -/
theorem entries_insertAll {m : OrderedMap α β} {es : List (α × β)}
    (h : ((m.entries ++ es).map Prod.fst).Nodup) : (m.insertAll es).entries = m.entries ++ es := by
  -- the map grows while the entries are used up, so the induction is for all maps
  induction es generalizing m with
  | nil =>
    rw [List.append_nil]
    rfl
  | cons e es ih =>
    have hnew : e.1 ∉ m.entries.map Prod.fst := by
      rw [List.map_append, List.map_cons] at h
      exact fun hm => (List.nodup_append.mp h).2.2 e.1 hm e.1 List.mem_cons_self rfl
    have hentries : (m.insert e.1 e.2).2.entries = m.entries ++ [e] :=
      Entries.put_of_not_mem hnew e.2
    have hnodup : (((m.insert e.1 e.2).2.entries ++ es).map Prod.fst).Nodup := by
      rwa [hentries, List.append_assoc, List.singleton_append]
    have htail := ih hnodup
    rw [hentries, List.append_assoc, List.singleton_append] at htail
    exact htail

/-- A map is what its own entries build. -/
theorem ofList_entries (m : OrderedMap α β) : ofList m.entries = m := by
  have hnodup : (((empty : OrderedMap α β).entries ++ m.entries).map Prod.fst).Nodup :=
    m.keys_nodup
  exact ext (entries_insertAll hnodup)

/-- The map with other values under the same keys. -/
def mapValues (f : β → γ) (m : OrderedMap α β) : OrderedMap α γ :=
  ⟨m.entries.map fun e => (e.1, f e.2), by rw [List.map_map]; exact m.keys_nodup⟩

omit [DecidableEq α] in
@[simp] theorem entries_mapValues (f : β → γ) (m : OrderedMap α β) :
    (m.mapValues f).entries = m.entries.map fun e => (e.1, f e.2) := rfl

/-- Changing all values changes what is found under a key, and not whether anything is. -/
theorem get?_mapValues (f : β → γ) (m : OrderedMap α β) (k : α) :
    (m.mapValues f).get? k = (m.get? k).map f :=
  Entries.get?_map f k m.entries

/-- Values that do not change leave the map as it is. -/
theorem mapValues_eq_self_iff (f : β → β) (m : OrderedMap α β) :
    m.mapValues f = m ↔ ∀ k v, m.get? k = some v → f v = v := by
  constructor
  · intro h k v hv
    have hf := get?_mapValues f m k
    rw [h, hv, Option.map_some, Option.some_inj] at hf
    exact hf.symm
  · intro h
    refine ext ?_
    rw [entries_mapValues]
    refine (List.map_congr_left fun e he => ?_).trans (List.map_id m.entries)
    rw [h e.1 e.2 ((get?_eq_some_iff m e.1 e.2).mpr he)]
    rfl

end OrderedMap

end OrderedMap

/-! ## Property values -/

namespace PropertyValue

/-- The value as it is read back: a table without rows is printed as a list
without items. -/
def normal : PropertyValue → PropertyValue
  | table [] => list []
  | v => v

/-- Only an empty table differs from its normal form. -/
theorem normal_eq_self_iff (v : PropertyValue) : v.normal = v ↔ v ≠ table [] := by
  rcases v with s | n | b | items | rows
  · exact ⟨fun _ h => (nomatch h), fun _ => rfl⟩
  · exact ⟨fun _ h => (nomatch h), fun _ => rfl⟩
  · exact ⟨fun _ h => (nomatch h), fun _ => rfl⟩
  · exact ⟨fun _ h => (nomatch h), fun _ => rfl⟩
  · cases rows with
    | nil => exact ⟨fun h => (nomatch h), fun h => absurd rfl h⟩
    | cons row rows => exact ⟨fun _ h => (nomatch h), fun _ => rfl⟩

/-- The document of a row. -/
def rowDocument (r : String × String) : Document := .sequence [.text r.1, .text r.2] true

/-- Texts are found again in the documents of texts. -/
theorem mapM_textOf? (items : List String) :
    (items.map Document.text).mapM textOf? = some items := by
  induction items with
  | nil => rfl
  | cons s items ih =>
    rw [List.map_cons, List.mapM_cons, ih]
    rfl

/-- Rows are found again in the documents of rows. -/
theorem mapM_rowOf? (rows : List (String × String)) :
    (rows.map rowDocument).mapM rowOf? = some rows := by
  induction rows with
  | nil => rfl
  | cons r rows ih =>
    rw [List.map_cons, List.mapM_cons, ih]
    rfl

/-- Rows are no texts, so a table with rows is not taken for a list. -/
theorem ofDocument?_rows (rows : List (String × String)) :
    ofDocument? (.sequence (rows.map rowDocument) true) = some (table rows).normal := by
  rw [ofDocument?, mapM_rowOf?]
  cases rows with
  | nil => rfl
  | cons r rows => rfl

/-- A sequence of texts stands for a list. -/
theorem ofDocument?_items (items : List String) :
    ofDocument? (.sequence (items.map Document.text) true) = some (list items) := by
  rw [ofDocument?, mapM_textOf?]
  rfl

/-- The document as which a value is taken in. -/
def settled : PropertyValue → Document
  | text s => .text s
  | integer n => .integer n.toInt
  | bool b => .bool b
  | list items => .sequence (items.map Document.text) true
  | table rows => .sequence (rows.map rowDocument) true

/-- A property is found again in what its text is taken in as, but an empty table is
found as an empty list. -/
theorem ofDocument?_settled (v : PropertyValue) : ofDocument? v.settled = some v.normal := by
  rcases v with s | n | b | items | rows
  · rfl
  · have hrange : Int64.minValue.toInt ≤ n.toInt ∧ n.toInt ≤ Int64.maxValue.toInt :=
      ⟨n.minValue_le_toInt, n.toInt_le⟩
    rw [settled, ofDocument?, if_pos hrange, Int64.ofInt_toInt]
    rfl
  · rfl
  · exact ofDocument?_items items
  · exact ofDocument?_rows rows

/-- What the text of a property is taken in as, before its shape is looked at. -/
theorem yields_settle (v : PropertyValue) : Json.Yields Document.settle v.toJson v.settled := by
  rcases v with s | n | b | items | rows
  · exact Json.yields_settle_text s
  · refine Json.yields_of_nesting_eq_zero rfl fun depth => ?_
    rw [toJson, Json.document, Json.toDocument_numeral (Json.fitsWord_int64 n)]
    rfl
  · exact Json.yields_of_nesting_eq_zero rfl fun _ => rfl
  · refine Json.yields_settle_array ?_
    rw [List.forall₂_map_left_iff, List.forall₂_map_right_iff, List.forall₂_same]
    exact fun s _ => Json.yields_settle_text s
  · refine Json.yields_settle_array ?_
    rw [List.forall₂_map_left_iff, List.forall₂_map_right_iff, List.forall₂_same]
    exact fun r _ => Json.yields_settle_array
      (.cons (Json.yields_settle_text r.1) (.cons (Json.yields_settle_text r.2) .nil))

/-- Reading the text of a property gives its normal form. -/
theorem yields_read (v : PropertyValue) : Json.Yields read v.toJson v.normal := by
  refine (yields_settle v).bind ?_
  rw [ofDocument?_settled]
  rfl

end PropertyValue

/-! ## Elements -/

namespace Element

/-- The element with its property values in normal form. -/
def normal (e : Element) : Element := { e with properties := e.properties.mapValues (·.normal) }

/-- Only an empty table is not in normal form. -/
theorem normal_eq_self_iff (e : Element) :
    e.normal = e ↔ ∀ key, e.property? key ≠ some (.table []) := by
  have hmap : e.normal = e ↔ e.properties.mapValues (·.normal) = e.properties := by
    constructor
    · exact congrArg Element.properties
    · intro h
      rw [normal, h]
  rw [hmap, OrderedMap.mapValues_eq_self_iff]
  constructor
  · intro h key hkey
    exact absurd (h key _ hkey) ((PropertyValue.normal_eq_self_iff _).not_left.mpr rfl)
  · rintro h key v hv
    refine (PropertyValue.normal_eq_self_iff v).mpr ?_
    rintro rfl
    exact h key hv

/-- A kind is read back from its identifier. -/
theorem yields_readKind (k : ElementKind) : Json.Yields ElementKind.read k.toJson k := by
  refine Json.yields_of_nesting_eq_zero rfl fun depth => ?_
  change Document.variantNamed _ _ k.identifier = _
  rw [Document.variantNamed, ElementKind.ofIdentifier?_identifier]

/-- Properties are read back in their order, each in its normal form. -/
theorem yields_readProperties (m : PropertyMap) :
    Json.Yields PropertyMap.read (PropertyMap.toJson m) (m.mapValues (·.normal)) := by
  have hvalues : List.Forall₂
      (fun (j : String × Json) (e : String × PropertyValue) =>
        j.1 = e.1 ∧ Json.Yields PropertyValue.read j.2 e.2)
      (m.entries.map fun e => (e.1, e.2.toJson)) (m.mapValues (·.normal)).entries := by
    rw [OrderedMap.entries_mapValues, List.forall₂_map_left_iff, List.forall₂_map_right_iff,
      List.forall₂_same]
    exact fun e _ => ⟨rfl, e.2.yields_read⟩
  have hread := (Json.yields_readPairs hvalues).map OrderedMap.ofList
  rw [OrderedMap.ofList_entries] at hread
  exact hread

/-- A printed element is read back in normal form. -/
theorem yields_read (form : ArrayForm) (e : Element) :
    Json.Yields (read form) e.toJson e.normal := by
  have hname : Json.Yields Document.readText (.text e.name) e.name :=
    Json.yields_of_nesting_eq_zero rfl fun _ => rfl
  refine Json.yields_record form (s := ⟨some e.kind, some e.name, some e.normal.properties⟩) ?_ rfl
  -- the members stand in declaration order, each for an empty slot
  refine Json.fills_cons (i := 0) (by decide) rfl ((yields_readKind e.kind).map _) ?_
  refine Json.fills_cons (i := 1) (by decide) rfl (hname.map _) ?_
  exact Json.fills_cons (i := 2) (by decide) rfl
    ((yields_readProperties e.properties).map _) (Json.fills_nil reader _)

end Element

end LoadTest
