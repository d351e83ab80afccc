/-
The documents of printed values.

The node of a printed value has no aliases, so entering it uses none of those
that may be entered, and it is as deep as the value. If an outline asks for all
members of the value, what comes out of its text is a document that holds it:
texts are typed already, and words are left to the reader.
-/
import LoadTest.Document.Format
import LoadTest.Proofs.Yaml.Parser

set_option autoImplicit false

namespace LoadTest

open Document

/-! ## Outlines -/

/-- The outline asks for everything in the value. -/
inductive Outline.Covers : Outline → Json → Prop
  | whole (j : Json) : Covers .whole j
  | record {members : List (String × Outline)} {es : List (String × Json)}
      (part : String × Json → Outline)
      (hlookup : ∀ e ∈ es, members.lookup e.1 = some (part e))
      (hparts : ∀ e ∈ es, Covers (part e) e.2) : Covers (.record members) (.object es)

namespace Yaml

/-! ## Entering -/

section Enters

variable {α β : Type} {x : Entering α} {f : α → Entering β} {a : α} {b : β}

/-- The answer is reached without an alias. -/
def Enters (x : Entering α) (a : α) : Prop := ∀ left, x left = .ok (a, left)

theorem Enters.bind (hx : Enters x a) (hf : Enters (f a) b) : Enters (x >>= f) b := by
  intro left
  change (x left >>= fun r => f r.1 r.2) = _
  rw [hx left]
  exact hf left

end Enters

/-- A document that holds the value is reached from its node. -/
def Arrives (g : Graph) (levels : Nat) (outline : Outline) (j : Json) : Prop :=
  ∃ d, Holds d j ∧ Enters (g.document levels outline (flowNode j)) d

section Arrives

variable {g : Graph} {levels : Nat}

/-- A scalar enters as what its style makes of its text. -/
theorem enters_scalar (outline : Outline) (s : String) (style : ScalarStyle) :
    Enters (g.document levels outline (.scalar none s style)) (style.document s) := by
  cases levels with
  | zero => exact fun _ => rfl
  | succ levels => exact fun _ => rfl

/-- A word arrives, whatever is expected of it. -/
theorem arrives_word {j : Json} (hj : j.isWord = true) (outline : Outline) :
    Arrives g levels outline j := by
  rw [Arrives, flowNode_of_isWord hj]
  exact ⟨.plain j.print, .plain hj, enters_scalar outline j.print .plain⟩

/-- Elements that arrive enter one by one, and hold what was printed. -/
theorem exists_items {js : List Json} (hjs : ∀ j ∈ js, Arrives g levels .whole j) :
    ∃ ds, HoldsItems ds js ∧ Enters ((itemNodes js).mapM (g.document levels .whole)) ds := by
  induction js with
  | nil => exact ⟨[], .nil, fun _ => rfl⟩
  | cons j js ih =>
    obtain ⟨⟨d, hd, henter⟩, hjs⟩ := List.forall_mem_cons.mp hjs
    obtain ⟨ds, hds, hrest⟩ := ih hjs
    refine ⟨d :: ds, .cons hd hds, ?_⟩
    rw [itemNodes, List.mapM_cons]
    exact henter.bind (hrest.bind fun _ => rfl)

/-- A member is reached if the outline asks for it. -/
theorem enters_member {outline part : Outline} {k : String} {j : Json} {d : Document}
    (hpart : outline.member? (.text k) = some part)
    (hd : Enters (g.document levels part (flowNode j)) d) :
    Enters (Graph.enterMember (g.document levels) outline (.scalar none k .quoted, flowNode j))
      (.text k, d) := by
  have hkey : ScalarStyle.quoted.document k = .text k := rfl
  refine (enters_scalar .whole k .quoted).bind ?_
  simp only [hkey, hpart]
  exact hd.bind fun _ => rfl

/-- Members that arrive enter one by one, and hold the keys and values that were
printed. -/
theorem exists_members {outline : Outline} {es : List (String × Json)}
    (hes : ∀ e ∈ es, ∃ part, outline.member? (.text e.1) = some part
      ∧ Arrives g levels part e.2) :
    ∃ ms, HoldsMembers ms es
      ∧ Enters ((memberNodes es).mapM (Graph.enterMember (g.document levels) outline)) ms := by
  induction es with
  | nil => exact ⟨[], .nil, fun _ => rfl⟩
  | cons e es ih =>
    obtain ⟨⟨part, hpart, d, hd, henter⟩, hes⟩ := List.forall_mem_cons.mp hes
    obtain ⟨ms, hms, hrest⟩ := ih hes
    refine ⟨(.text e.1, d) :: ms, .cons hd hms, ?_⟩
    rw [memberNodes, List.mapM_cons]
    exact (enters_member hpart henter).bind (hrest.bind fun _ => rfl)

/-- An outline that covers an object has a part for each of its members, which covers
its value. -/
theorem covers_member? {outline : Outline} {es : List (String × Json)}
    (hcovers : outline.Covers (.object es)) :
    ∀ e ∈ es, ∃ part, outline.member? (.text e.1) = some part ∧ part.Covers e.2 := by
  intro e he
  cases hcovers with
  | whole => exact ⟨.whole, rfl, .whole e.2⟩
  | record part hlookup hparts => exact ⟨part e, hlookup e he, hparts e he⟩

/-- With enough levels every printed value is reached. -/
theorem arrives (g : Graph) {levels : Nat} {outline : Outline} {j : Json}
    (hlevels : j.nesting ≤ levels) (hcovers : outline.Covers j) : Arrives g levels outline j := by
  induction j using Json.wordInduction generalizing levels outline with
  | word j hword => exact arrives_word hword outline
  | text s => exact ⟨.text s, .text s, enters_scalar outline s .quoted⟩
  | array js ih =>
    obtain ⟨levels, rfl⟩ := Nat.exists_eq_add_one.mpr (Nat.lt_of_lt_of_le (Nat.succ_pos _) hlevels)
    have hitems := Json.nesting_array_le.mp hlevels
    obtain ⟨ds, hds, henter⟩ := exists_items fun j hj => ih j hj (hitems j hj) (.whole j)
    have hdocument : Enters ((itemNodes js).mapM (g.document levels .whole) >>= fun ds =>
        pure (Document.sequence ds true)) (.sequence ds true) := henter.bind fun _ => rfl
    exact ⟨.sequence ds true, .sequence hds, hdocument⟩
  | object es ih =>
    obtain ⟨levels, rfl⟩ := Nat.exists_eq_add_one.mpr (Nat.lt_of_lt_of_le (Nat.succ_pos _) hlevels)
    have hvalues := Json.nesting_object_le.mp hlevels
    have hmembers : ∀ e ∈ es, ∃ part, outline.member? (.text e.1) = some part
        ∧ Arrives g levels part e.2 := by
      intro e he
      obtain ⟨part, hpart, hcovers⟩ := covers_member? hcovers e he
      exact ⟨part, hpart, ih e he (hvalues e he) hcovers⟩
    obtain ⟨ms, hms, henter⟩ := exists_members hmembers
    have hdocument : Enters ((memberNodes es).mapM (Graph.enterMember (g.document levels) outline)
        >>= fun ms => pure (Document.map ms true)) (.map ms true) := henter.bind fun _ => rfl
    exact ⟨.map ms true, .map hms, hdocument⟩

end Arrives

/-! ## Whole texts -/

/-- A document that holds the object is read from its text. -/
theorem exists_document {es : List (String × Json)} {outline : Outline}
    (hes : IsInline (.object es)) (hcovers : outline.Covers (.object es))
    (hnesting : (Json.object es).nesting ≤ Graph.levels) :
    ∃ d, Holds d (.object es) ∧ document outline (Json.chars (.object es)) = .ok d := by
  let g : Graph := ⟨flowNode (.object es), .empty⟩
  obtain ⟨d, hd, henter⟩ := arrives g hnesting hcovers
  refine ⟨d, hd, ?_⟩
  rw [document, parse_chars hes]
  change Prod.fst <$> g.document Graph.levels outline (flowNode (.object es)) _ = _
  rw [henter]
  rfl

end Yaml

end LoadTest
