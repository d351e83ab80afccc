/-
Printed values read back.

The document of a printed value is known without its text (`Json.document`):
every part stands where it stood, and a collection below 127 others is barred.
What is printed for a value is one of the texts that spell this document, the one
without any blank (`spelled_chars`, by induction on the value). So parsing the
text gives the document back, for every value and whatever its size.
-/
import LoadTest.Proofs.Json.Grammar
import LoadTest.Proofs.Json.Leaf

set_option autoImplicit false

namespace LoadTest

namespace Json

/-- What holds of a value as soon as it holds of its elements, or of the values
of its members, holds of every value. -/
@[induction_eliminator]
theorem induction {motive : Json → Prop} (null : motive .null) (bool : ∀ b, motive (.bool b))
    (integer : ∀ n, motive (.integer n)) (text : ∀ s, motive (.text s))
    (array : ∀ items, (∀ j ∈ items, motive j) → motive (.array items))
    (object : ∀ members, (∀ m ∈ members, motive m.2) → motive (.object members)) (j : Json) :
    motive j := by
  refine @Json.rec motive (fun items => ∀ j ∈ items, motive j)
    (fun members => ∀ m ∈ members, motive m.2) (fun m => motive m.2)
    null bool integer text array object ?_ ?_ ?_ ?_ ?_ j
  · intro j hj
    exact absurd hj List.not_mem_nil
  · intro k items hk hitems
    exact List.forall_mem_cons.mpr ⟨hk, hitems⟩
  · intro m hm
    exact absurd hm List.not_mem_nil
  · intro m members hm hmembers
    exact List.forall_mem_cons.mpr ⟨hm, hmembers⟩
  · intro k j hj
    exact hj

/-! ## Nesting and documents -/

mutual
/-- The number of arrays and objects that are nested in one another. -/
def nesting : Json → Nat
  | array items => nestingItems items + 1
  | object members => nestingMembers members + 1
  | _ => 0

/-- The nesting of the most deeply nested element. -/
def nestingItems : List Json → Nat
  | [] => 0
  | j :: js => max (nesting j) (nestingItems js)

/-- The nesting of the most deeply nested value of a member. -/
def nestingMembers : List (String × Json) → Nat
  | [] => 0
  | (_, j) :: ms => max (nesting j) (nestingMembers ms)
end

/-- An array nests one level more than its elements. -/
theorem nesting_array_le {js : List Json} {n : Nat} :
    nesting (.array js) ≤ n + 1 ↔ ∀ j ∈ js, nesting j ≤ n := by
  rw [nesting, Nat.add_le_add_iff_right]
  induction js with
  | nil => exact ⟨fun _ j hj => absurd hj List.not_mem_nil, fun _ => Nat.zero_le n⟩
  | cons j js ih => rw [nestingItems, Nat.max_le, ih, List.forall_mem_cons]

/-- An object nests one level more than the values of its members. -/
theorem nesting_object_le {ms : List (String × Json)} {n : Nat} :
    nesting (.object ms) ≤ n + 1 ↔ ∀ m ∈ ms, nesting m.2 ≤ n := by
  rw [nesting, Nat.add_le_add_iff_right]
  induction ms with
  | nil => exact ⟨fun _ m hm => absurd hm List.not_mem_nil, fun _ => Nat.zero_le n⟩
  | cons m ms ih => rw [nestingMembers, Nat.max_le, ih, List.forall_mem_cons]

mutual
/-- The document that is read from a printed value below `depth` collections. -/
def document : Nat → Json → Document
  | _, null => .null
  | _, bool b => .bool b
  | _, integer n => (numeral n).toDocument
  | _, text s => .text s
  | depth, array items => atDepth depth (.sequence (documents (depth + 1) items) true)
  | depth, object members => atDepth depth (.map (memberDocuments (depth + 1) members) true)

/-- The documents of elements. -/
def documents : Nat → List Json → List Document
  | _, [] => []
  | depth, j :: js => document depth j :: documents depth js

/-- The documents of members. -/
def memberDocuments : Nat → List (String × Json) → List (Document × Document)
  | _, [] => []
  | depth, (k, j) :: ms => (.text k, document depth j) :: memberDocuments depth ms
end

/-! ## Spelling -/

/-- Elements that spell their documents spell them in a row. -/
theorem spelled_charsItems {depth : Nat} {js : List Json}
    (hjs : ∀ j ∈ js, Spelled depth (document depth j) (chars j)) (hne : js ≠ []) :
    ItemsSpelled depth (documents depth js) (charsItems js ++ [']']) := by
  induction js with
  | nil => exact absurd rfl hne
  | cons j js ih =>
    obtain ⟨hj, hjs⟩ := List.forall_mem_cons.mp hjs
    rcases js with _ | ⟨k, ks⟩
    · exact .last hj blank_nil
    · have hchars : charsItems (j :: k :: ks) = chars j ++ ',' :: charsItems (k :: ks) := by
        rw [charsItems]
        exact fun h => nomatch h
      have hitems := ih hjs (List.cons_ne_nil k ks)
      have h := ItemsSpelled.next hj blank_nil blank_nil hitems
      rw [hchars, List.append_assoc, List.cons_append]
      exact h

/-- Members whose values spell their documents spell them in a row, behind the
quotation mark of the first key. -/
theorem spelled_charsMembers {depth : Nat} {ms : List (String × Json)}
    (hms : ∀ m ∈ ms, Spelled depth (document depth m.2) (chars m.2)) (hne : ms ≠ []) :
    ∃ cs, charsMembers ms = '"' :: cs
      ∧ MembersSpelled depth (memberDocuments depth ms) (cs ++ ['}']) := by
  induction ms with
  | nil => exact absurd rfl hne
  | cons m ms ih =>
    obtain ⟨k, j⟩ := m
    obtain ⟨hj, hms⟩ := List.forall_mem_cons.mp hms
    obtain ⟨ps, hps, htext⟩ := spelled_text k
    rcases ms with _ | ⟨m', ms⟩
    · refine ⟨k.toList.flatMap escape ++ '"' :: ':' :: chars j, ?_, ?_⟩
      · rw [charsMembers, quote, List.cons_append, List.append_assoc, List.singleton_append]
      · have h := MembersSpelled.last hps blank_nil blank_nil hj blank_nil
        rw [List.append_assoc]
        rwa [htext] at h
    · obtain ⟨cs, hcs, hmembers⟩ := ih hms (List.cons_ne_nil m' ms)
      refine ⟨k.toList.flatMap escape ++ '"' :: ':' :: (chars j ++ ',' :: '"' :: cs), ?_, ?_⟩
      · rw [charsMembers, hcs, quote, List.cons_append, List.append_assoc, List.singleton_append]
        exact fun h => nomatch h
      · have h := MembersSpelled.next hps blank_nil blank_nil hj blank_nil blank_nil hmembers
        rw [List.append_assoc, List.cons_append, List.cons_append, List.append_assoc]
        rwa [htext] at h

/-- What is printed for a value spells the document that is read from it. -/
theorem spelled_chars (j : Json) (depth : Nat) : Spelled depth (document depth j) (chars j) := by
  induction j generalizing depth with
  | null => exact .wordNull
  | bool b =>
    cases b with
    | false => exact .wordFalse
    | true => exact .wordTrue
  | integer n => exact .number (spelled_intDigits n)
  | text s =>
    obtain ⟨ps, hps, htext⟩ := spelled_text s
    rw [document, ← htext]
    exact .text hps
  | array js ih =>
    rcases js with _ | ⟨j, js⟩
    · exact .emptyArray blank_nil
    · have hitems := spelled_charsItems (fun j hj => ih j hj (depth + 1)) (List.cons_ne_nil j js)
      have h := Spelled.array blank_nil hitems
      exact h
  | object ms ih =>
    rcases ms with _ | ⟨m, ms⟩
    · exact .emptyObject blank_nil
    · obtain ⟨cs, hcs, hmembers⟩ :=
        spelled_charsMembers (fun m hm => ih m hm (depth + 1)) (List.cons_ne_nil m ms)
      rw [chars, hcs]
      exact .object blank_nil hmembers

/-- Parsing a printed value gives its document, and nothing is left of the text. -/
theorem parse_print (j : Json) : parse j.print.toList = (document 0 j, true) := by
  refine (parse_eq_iff _ _).mpr ⟨[], chars j, [], blank_nil, spelled_chars j 0, blank_nil, ?_⟩
  rw [print, String.toList_ofList, List.nil_append, List.append_nil]

/-- Reading a printed value is reading its document. -/
theorem decode_print {α : Type} (read : Document → Decoded α) (j : Json) :
    decode read j.print = read (document 0 j) := by
  rw [decode, parse_print]
  rcases read (document 0 j) with e | a
  · rfl
  · rfl

end Json

end LoadTest
