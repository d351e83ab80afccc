/-
Outlines of documents.

A reader of a record looks at the members that it knows and at no others. Where
a text repeats its own parts, what it amounts to can be much larger than the
text, so it matters which parts are asked for at all.
-/
import LoadTest.Document.Basic

set_option autoImplicit false

namespace LoadTest

/-- The parts of a document that a reader asks for. -/
inductive Outline where
  /-- All of it. -/
  | whole
  /-- Of a map the members with these names, and all of anything else. -/
  | record (members : List (String × Outline))

namespace Outline

/-- A record whose members are wanted as a whole. -/
def ofNames (names : List String) : Outline := .record (names.map fun s => (s, whole))

/-- What is asked for of the member with a key, if anything is. -/
def member? (key : Document) : Outline → Option Outline
  | whole => some whole
  | record members => key.spelling?.bind fun s => members.lookup s

@[simp] theorem member?_whole (key : Document) : whole.member? key = some whole := rfl

/-- A member that a record does not know is not asked for. -/
theorem member?_record_of_not_mem {s : String} {members : List (String × Outline)}
    (h : s ∉ members.map Prod.fst) : (record members).member? (.text s) = none := by
  simp only [member?, Document.spelling?, Document.untagged, Option.bind_some]
  refine List.lookup_eq_none_iff.2 fun p hp => ?_
  have hne : s ≠ p.1 := fun he => h (he ▸ List.mem_map_of_mem hp)
  simpa using hne

end Outline

end LoadTest
