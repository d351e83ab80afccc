/-
Test-plan elements: a kind, a name and properties in order.

The order of the properties is kept by every operation, because it is printed
and hashed. Two elements are nevertheless *alike* (`Element.alike`) as soon as
they have the same kind, name and property values: the order then does not
count.
-/
import LoadTest.OrderedMap
import LoadTest.Element.Kind
import LoadTest.Element.Value

set_option autoImplicit false

namespace LoadTest

/-- Properties of an element, in the order in which their keys were first set. -/
abbrev PropertyMap := OrderedMap String PropertyValue

/-- One element of a test plan. -/
structure Element where
  kind : ElementKind
  name : String
  properties : PropertyMap
  deriving DecidableEq

namespace Element

/-- An element of a kind, with the name of the kind and no property. -/
def new (kind : ElementKind) : Element := ⟨kind, kind.defaultName, .empty⟩

instance : Inhabited Element := ⟨new .testPlan⟩

/-- Give the element a name. -/
def withName (e : Element) (name : String) : Element := { e with name := name }

/-- Set a property, and answer with the value it displaces. -/
def setProperty (e : Element) (key : String) (v : PropertyValue) : Option PropertyValue × Element :=
  ((e.properties.insert key v).1, { e with properties := (e.properties.insert key v).2 })

/-- Remove a property, and answer with the value it had. -/
def removeProperty (e : Element) (key : String) : Option PropertyValue × Element :=
  ((e.properties.erase key).1, { e with properties := (e.properties.erase key).2 })

/-- Set a property and go on with the element. -/
def withProperty (e : Element) (key : String) (v : PropertyValue) : Element :=
  (e.setProperty key v).2

/-- Set properties one after another. -/
def withProperties (e : Element) (ps : List (String × PropertyValue)) : Element :=
  { e with properties := e.properties.insertAll ps }

/-- The value of a property. -/
def property? (e : Element) (key : String) : Option PropertyValue := e.properties.get? key

/-- Whether a property is set. -/
def hasProperty (e : Element) (key : String) : Bool := e.properties.contains key

/-- The value of a property that holds text. -/
def textProperty? (e : Element) (key : String) : Option String := e.property? key >>= (·.text?)

/-- Same kind, same name, same value under every key. -/
def alike (a b : Element) : Bool :=
  a.kind == b.kind && a.name == b.name && a.properties.same b.properties

@[simp] theorem kind_withName (e : Element) (s : String) : (e.withName s).kind = e.kind := rfl

@[simp] theorem name_withName (e : Element) (s : String) : (e.withName s).name = s := rfl

@[simp] theorem kind_withProperty (e : Element) (k : String) (v : PropertyValue) :
    (e.withProperty k v).kind = e.kind := rfl

@[simp] theorem name_withProperty (e : Element) (k : String) (v : PropertyValue) :
    (e.withProperty k v).name = e.name := rfl

/-- What was written under a key is found there, and the other properties are as they
were. -/
theorem property?_withProperty (e : Element) (k k' : String) (v : PropertyValue) :
    (e.withProperty k v).property? k' = if k = k' then some v else e.property? k' :=
  OrderedMap.get?_insert e.properties k k' v

end Element

end LoadTest
