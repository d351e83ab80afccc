/-
Tables under construction.

A table is built from headers and from entries whose keys may lead through
further tables. What was built in one way must not be extended in another: a
table with a header is complete once it has been left, a table that was opened
by keys with points is extended by such keys only, and a value is never
extended. A table that only lies on the way to another one may still get its
own header, and then stands where that header stands.
-/
import LoadTest.Document.Basic

set_option autoImplicit false

namespace LoadTest.Toml

/-- What stands under a name in a table under construction. -/
inductive Item where
  /-- A value that was written as such. -/
  | value (d : Document)
  /-- A table. It is `implicit` as long as it has no header of its own, and
  `dotted` if keys with points have opened it. -/
  | table (implicit dotted : Bool) (entries : List (String × Item))
  /-- Tables with the same header, each of them an item. -/
  | tables (items : List Item)

/-- The entries of a table, in order. -/
abbrev Entries := List (String × Item)

namespace Entries

/-- What stands under a name. -/
def find? (k : String) (es : Entries) : Option Item :=
  (List.find? (fun e => e.1 == k) es).map Prod.snd

/-- Put something else under a name that is present. -/
def replace (k : String) (i : Item) (es : Entries) : Entries :=
  List.map (fun e => if e.1 == k then (k, i) else e) es

/-- Take a name out. -/
def without (k : String) (es : Entries) : Entries :=
  List.filter (fun e => !(e.1 == k)) es

/-- Change the entries of a table that lies on the way along names, opening
tables where there are none. On the way through several tables with the same
header it is the last that counts. Keys with points do not lead through tables
that have headers of their own. `f` is also told whether keys with points have
opened the table it changes. -/
def along {α : Type} (byKey : Bool) (f : Bool → Entries → Option (α × Entries)) :
    List String → Bool → Entries → Option (α × Entries)
  | [], dotted, es => f dotted es
  | k :: ks, _, es =>
    match es.find? k with
    | none => do
      let r ← along byKey f ks byKey []
      some (r.1, es ++ [(k, .table true byKey r.2)])
    | some (.table implicit dotted sub) =>
      if byKey && !implicit then none
      else do
        let r ← along byKey f ks dotted sub
        some (r.1, es.replace k (.table implicit dotted r.2))
    | some (.tables items) =>
      match items.getLast? with
      | some (.table implicit dotted sub) => do
        let r ← along byKey f ks dotted sub
        some (r.1, es.replace k (.tables (items.dropLast ++ [.table implicit dotted r.2])))
      | _ => none
    | some (.value _) => none

/-- Add an entry under a new name. A table that keys with points have opened
takes entries from such keys only, and the other tables take none from them. -/
def add (byKey : Bool) (k : String) (i : Item) (dotted : Bool) (es : Entries) :
    Option (Unit × Entries) :=
  if dotted != byKey then none
  else match es.find? k with
    | some _ => none
    | none => some ((), es ++ [(k, i)])

/-- Add a value under a key. -/
def put (path : List String) (k : String) (d : Document) (es : Entries) : Option Entries :=
  (along true (add (!path.isEmpty) k (.value d)) path false es).map Prod.snd

/-- Take the table under a name out, if it may still get a header. The answer is
its entries. -/
def takeOut (k : String) (_dotted : Bool) (es : Entries) : Option (Entries × Entries) :=
  match es.find? k with
  | none => some ([], es)
  | some (.table true false sub) => some (sub, es.without k)
  | some _ => none

/-- Make room for tables with a common header. -/
def reserveTables (k : String) (_dotted : Bool) (es : Entries) : Option (Unit × Entries) :=
  match es.find? k with
  | none => some ((), es ++ [(k, .tables [])])
  | some (.tables _) => some ((), es)
  | some _ => none

/-- Store a finished table under a name that is free. -/
def store (k : String) (t : Entries) (_dotted : Bool) (es : Entries) : Option (Unit × Entries) :=
  match es.find? k with
  | none => some ((), es ++ [(k, .table false false t)])
  | some _ => none

/-- Append a finished table to those with the same header. -/
def append (k : String) (t : Entries) (_dotted : Bool) (es : Entries) : Option (Unit × Entries) :=
  match es.find? k with
  | some (.tables items) => some ((), es.replace k (.tables (items ++ [.table false false t])))
  | _ => none

end Entries

namespace Item

mutual
/-- An item as a document. -/
def toDocument : Item → Document
  | value d => d
  | table _ _ es => .map (entriesToMembers es) true
  | tables items => .sequence (itemsToDocuments items) true

/-- Items as documents. -/
def itemsToDocuments : List Item → List Document
  | [] => []
  | i :: is => toDocument i :: itemsToDocuments is

/-- Entries as members of a document. -/
def entriesToMembers : List (String × Item) → List (Document × Document)
  | [] => []
  | (k, i) :: es => (.text k, toDocument i) :: entriesToMembers es
end

end Item

/-! ## Building -/

/-- A document under construction: the tables that are finished, and the table
whose header was read last. -/
structure Builder where
  root : Entries
  current : Entries
  /-- The path of the current table, and its name; none for the top level. -/
  header : Option (List String × String)
  /-- Whether the current table is one of several with the same header. -/
  several : Bool

namespace Builder

/-- Nothing read. -/
def start : Builder := ⟨[], [], none, false⟩

/-- Store the current table. -/
def finish (b : Builder) : Option Entries :=
  match b.header with
  | none => some b.current
  | some (path, k) =>
    let f := if b.several then Entries.append k b.current else Entries.store k b.current
    (Entries.along false f path false b.root).map Prod.snd

/-- Begin a table with a header. -/
def openTable (b : Builder) (path : List String) (k : String) : Option Builder := do
  let root ← b.finish
  let r ← Entries.along false (Entries.takeOut k) path false root
  some ⟨r.2, r.1, some (path, k), false⟩

/-- Begin one of several tables with a header. -/
def openTables (b : Builder) (path : List String) (k : String) : Option Builder := do
  let root ← b.finish
  let r ← Entries.along false (Entries.reserveTables k) path false root
  some ⟨r.2, [], some (path, k), true⟩

/-- Add a value to the current table. -/
def put (b : Builder) (path : List String) (k : String) (d : Document) : Option Builder := do
  let current ← b.current.put path k d
  some { b with current := current }

end Builder

end LoadTest.Toml
