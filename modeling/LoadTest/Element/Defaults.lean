/-
Default properties per kind, and the elements created from them.

`ElementDefaults` says for each kind which properties a new element starts
with. A kind may be present with an empty map: such a table is empty in effect
(`ElementDefaults.isEmpty`) though it is written differently. Creating an
element replays the map of its kind onto the bare element, so the created
properties stand in registration order.
-/
import LoadTest.Element.Basic

set_option autoImplicit false

namespace LoadTest

/-- Default properties, kind by kind; `none` for a kind that is not listed. -/
structure ElementDefaults where
  /-- The properties registered for a kind. -/
  forKind : ElementKind → Option PropertyMap

namespace ElementDefaults

/-- No defaults for any kind. -/
def empty : ElementDefaults := ⟨fun _ => none⟩

instance : Inhabited ElementDefaults := ⟨empty⟩

/-- Replace the whole map of a kind. -/
def putKind (d : ElementDefaults) (kind : ElementKind) (ps : PropertyMap) : ElementDefaults :=
  ⟨fun k => if k = kind then some ps else d.forKind k⟩

/-- The registered properties of a kind; none if the kind is not listed. -/
def propertiesOf (d : ElementDefaults) (kind : ElementKind) : PropertyMap :=
  (d.forKind kind).getD .empty

/-- Register a property for a kind. -/
def set (d : ElementDefaults) (kind : ElementKind) (key : String) (v : PropertyValue) :
    ElementDefaults :=
  d.putKind kind ((d.propertiesOf kind).insert key v).2

/-- Registrations one after another. -/
def setAll (d : ElementDefaults) (rs : List (ElementKind × String × PropertyValue)) :
    ElementDefaults :=
  rs.foldl (fun d r => d.set r.1 r.2.1 r.2.2) d

/-- The listed kinds with their maps, in declaration order of the kinds. -/
def toList (d : ElementDefaults) : List (ElementKind × PropertyMap) :=
  ElementKind.all.filterMap fun k => (d.forKind k).map fun m => (k, m)

/-- Whether no kind has a default property. -/
def isEmpty (d : ElementDefaults) : Bool := d.toList.all fun e => e.2.isEmpty

/-- Same kinds listed, each with the same property values. -/
def same (a b : ElementDefaults) : Bool :=
  ElementKind.all.all fun k =>
    match a.forKind k, b.forKind k with
    | none, none => true
    | some m, some n => m.same n
    | _, _ => false

/-- A new element of a kind: the bare one with the kind's defaults set on it in
registration order. -/
def newElement (d : ElementDefaults) (kind : ElementKind) : Element :=
  (Element.new kind).withProperties (d.propertiesOf kind).entries

end ElementDefaults

end LoadTest
