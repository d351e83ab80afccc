/-
Elements and default properties as documents.

The shapes of a property value are told apart by their content alone, tried in
the order text, integer, truth value, list, table. An array without elements is
therefore a list, also when it was written from a table without rows; every
other value is read back as it was written.
-/
import LoadTest.Document.Reader
import LoadTest.Element.Defaults
import LoadTest.Json.Basic

set_option autoImplicit false

namespace LoadTest

/-! ## Kinds -/

namespace ElementKind

/-- The identifiers of all kinds. -/
def identifiers : List String := all.map identifier

/-- Write a kind. -/
def toJson (k : ElementKind) : Json := .text k.identifier

/-- Read a kind. -/
def read (d : Document) : Decoded ElementKind := d.readVariant identifiers ofIdentifier?

/-- Read a kind that is a key. -/
def readKey (d : Document) : Decoded ElementKind := d.readVariantKey identifiers ofIdentifier?

end ElementKind

/-! ## Property values -/

namespace PropertyValue

/-- Write a property value. -/
def toJson : PropertyValue → Json
  | text s => .text s
  | integer n => .integer n.toInt
  | bool b => .bool b
  | list items => .array (items.map Json.text)
  | table rows => .array (rows.map fun r => .array [.text r.1, .text r.2])

/-- A document that is a text. -/
def textOf? : Document → Option String
  | .text s => some s
  | _ => none

/-- A document that is a row of a table: an array of two texts. -/
def rowOf? : Document → Option (String × String)
  | .sequence [.text a, .text b] _ => some (a, b)
  | _ => none

/-- The property value that a settled document is. -/
def ofDocument? : Document → Option PropertyValue
  | .text s => some (text s)
  | .integer n =>
    if Int64.minValue.toInt ≤ n ∧ n ≤ Int64.maxValue.toInt then some (integer (Int64.ofInt n))
    else none
  | .bool b => some (bool b)
  | .sequence items _ => (items.mapM textOf?).map list <|> (items.mapM rowOf?).map table
  | _ => none

/-- Read a property value. -/
def read (d : Document) : Decoded PropertyValue := do
  let d ← d.settle
  match ofDocument? d with
  | some v => pure v
  | none => Decoded.misfit (.noVariant "PropertyValue")

end PropertyValue

/-! ## Properties -/

namespace PropertyMap

/-- Write properties in order. -/
def toJson (m : PropertyMap) : Json := .object (m.entries.map fun e => (e.1, e.2.toJson))

/-- Read properties. A repeated key keeps its place and takes the last value. -/
def read (d : Document) : Decoded PropertyMap :=
  (d.readPairs Document.readText PropertyValue.read).map OrderedMap.ofList

end PropertyMap

/-! ## Elements -/

namespace Element

/-- Write an element. -/
def toJson (e : Element) : Json :=
  .object [("kind", e.kind.toJson), ("name", .text e.name),
    ("properties", PropertyMap.toJson e.properties)]

/-- The members of an element met so far. -/
structure Slots where
  kind : Option ElementKind
  name : Option String
  properties : Option PropertyMap

/-- Kind and name must be given; properties may be left out. -/
def reader : RecordReader Slots Element where
  name := "TestElement"
  members := ["kind", "name", "properties"]
  optional i := i == 2
  blank := ⟨none, none, none⟩
  isSet
    | 0, s => s.kind.isSome
    | 1, s => s.name.isSome
    | _, s => s.properties.isSome
  fill
    | 0, d, s => (ElementKind.read d).map fun v => { s with kind := some v }
    | 1, d, s => d.readText.map fun v => { s with name := some v }
    | _, d, s => (PropertyMap.read d).map fun v => { s with properties := some v }
  finish s :=
    match s.kind, s.name with
    | none, _ => Decoded.misfit (.missingMember "kind")
    | _, none => Decoded.misfit (.missingMember "name")
    | some k, some n => .ok ⟨k, n, s.properties.getD .empty⟩

/-- Read an element. -/
def read (form : ArrayForm) (d : Document) : Decoded Element := reader.read form d

end Element

/-! ## Defaults -/

namespace ElementDefaults

/-- Write the listed kinds in declaration order. -/
def toJson (d : ElementDefaults) : Json :=
  .object (d.toList.map fun e => (e.1.identifier, PropertyMap.toJson e.2))

/-- Read default properties. The last map given for a kind counts. -/
def read (d : Document) : Decoded ElementDefaults :=
  (d.readPairs ElementKind.readKey PropertyMap.read).map fun es =>
    es.foldl (fun d e => d.putKind e.1 e.2) empty

end ElementDefaults

end LoadTest
