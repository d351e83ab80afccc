/-
The journal of a run.

While a plan is built, three things are noted in the order in which they
happen: events for a reader of the log, the elements that were created, and
what recording filters saw. A `Logged` computation is its value together with
the entries it adds. Running one after another appends the entries, so the
journal of a failed build holds what was done before the failure.
-/
import LoadTest.Tree.Encoding
import LoadTest.Workload.Model

set_option autoImplicit false

namespace LoadTest

/-! ## Events -/

/-- Something worth telling the reader of a log. -/
inductive Event where
  /-- A workload with so many requests is about to be transformed. -/
  | transformingWorkload (workload : String) (requests : Nat)
  /-- A request has been handed to its transformer. -/
  | transformingRequest (id : String) (kind : RequestKind)
  /-- A property is copied although elements of this kind do not know it. -/
  | unrecognisedProperty (id key : String) (kind : ElementKind)
  /-- The thread group has received its fragments. -/
  | threadGroupAssembled (fragments : Nat)
  /-- A think-time filter has added so many timers. -/
  | timersAdded (timers : Nat)
  /-- A header manager could not be inserted. -/
  | headerManagerRefused (scope : Path) (error : EditError)
  /-- A filter has been applied. -/
  | filterApplied (filter : String) (before after : Nat) (digest : Digest)
  /-- The plan is finished. -/
  | planBuilt (workload : String) (nodes filters : Nat)
  deriving DecidableEq

namespace Event

/-- How much an event matters. -/
def level : Event → String
  | transformingWorkload .. | planBuilt .. => "INFO"
  | headerManagerRefused .. => "WARN"
  | _ => "DEBUG"

/-- The wording of an event. -/
def message : Event → String
  | transformingWorkload .. => "transforming workload model"
  | transformingRequest .. => "transforming request"
  | unrecognisedProperty .. => "passing through unrecognised property"
  | threadGroupAssembled _ => "assembled thread group"
  | timersAdded _ => "added think-time timers"
  | headerManagerRefused .. => "could not insert header manager"
  | filterApplied .. => "applied filter"
  | planBuilt .. => "test plan built"

/-- The particulars of an event, by name. -/
def fields : Event → List (String × String)
  | transformingWorkload w n => [("model", w), ("requests", Decimal.text n)]
  | transformingRequest id k => [("e_id", id), ("kind", k.typeName)]
  | unrecognisedProperty id key k => [("e_id", id), ("key", key), ("kind", k.identifier)]
  | threadGroupAssembled n => [("fragments", Decimal.text n)]
  | timersAdded n => [("timers", Decimal.text n)]
  | headerManagerRefused p e => [("scope", p.text), ("err", e.message)]
  | filterApplied f b a d =>
    [("filter", f), ("nodes_before", Decimal.text b), ("nodes_after", Decimal.text a),
      ("digest", d.short)]
  | planBuilt w n f => [("model", w), ("nodes", Decimal.text n), ("filters", Decimal.text f)]

end Event

/-- What a recording filter saw: its label, and the digest, size and markers of
the tree it was given. -/
structure Observation where
  filter : String
  digest : Digest
  nodeCount : Nat
  markers : List String
  deriving DecidableEq

/-! ## The journal -/

/-- An entry of the journal. -/
inductive JournalEntry where
  | event (e : Event)
  | created (kind : ElementKind)
  | observed (o : Observation)
  deriving DecidableEq

/-- Entries in the order in which they were made. -/
abbrev Journal := List JournalEntry

namespace Journal

/-- The events of a journal, in order. -/
def events (j : Journal) : List Event :=
  j.filterMap fun
    | .event e => some e
    | _ => none

/-- The kinds of the created elements, in order. -/
def created (j : Journal) : List ElementKind :=
  j.filterMap fun
    | .created k => some k
    | _ => none

/-- The observations of a journal, in order. -/
def observations (j : Journal) : List Observation :=
  j.filterMap fun
    | .observed o => some o
    | _ => none

theorem events_append (i j : Journal) : events (i ++ j) = events i ++ events j :=
  List.filterMap_append

theorem created_append (i j : Journal) : created (i ++ j) = created i ++ created j :=
  List.filterMap_append

theorem observations_append (i j : Journal) :
    observations (i ++ j) = observations i ++ observations j :=
  List.filterMap_append

end Journal

/-! ## Computations that keep a journal -/

/-- A value with the journal of what was done to obtain it. -/
structure Logged (α : Type) where
  value : α
  journal : Journal

namespace Logged

/-- Make one entry. -/
def note (e : JournalEntry) : Logged Unit := ⟨(), [e]⟩

/-- Note an event. -/
def event (e : Event) : Logged Unit := note (.event e)

instance : Monad Logged where
  pure a := ⟨a, []⟩
  bind m f := ⟨(f m.value).value, m.journal ++ (f m.value).journal⟩

variable {α β : Type}

@[simp] theorem value_pure (a : α) : (pure a : Logged α).value = a := rfl

@[simp] theorem journal_pure (a : α) : (pure a : Logged α).journal = [] := rfl

@[simp] theorem value_bind (m : Logged α) (f : α → Logged β) :
    (m >>= f).value = (f m.value).value := rfl

/-- The first computation's entries stand before the second's. -/
@[simp] theorem journal_bind (m : Logged α) (f : α → Logged β) :
    (m >>= f).journal = m.journal ++ (f m.value).journal := rfl

@[simp] theorem value_map (f : α → β) (m : Logged α) : (f <$> m).value = f m.value := rfl

@[simp] theorem journal_map (f : α → β) (m : Logged α) : (f <$> m).journal = m.journal :=
  List.append_nil m.journal

/-- A logged computation is its value and its journal. -/
theorem ext {m n : Logged α} (hv : m.value = n.value) (hj : m.journal = n.journal) : m = n := by
  cases m
  cases n
  cases hv
  cases hj
  rfl

instance : LawfulMonad Logged :=
  LawfulMonad.mk' Logged
    (fun m => ext rfl (List.append_nil m.journal))
    (fun _ _ => ext rfl rfl)
    (fun m f g => ext rfl (List.append_assoc m.journal _ _))

end Logged

end LoadTest
