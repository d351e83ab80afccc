/-
Workloads as documents.

A request carries its kind as a tag among its members. What stands in a request
is taken in before it is read, so its parts are read as settled documents. An
absent think time is not written; all other members are.
-/
import LoadTest.Document.Outline
import LoadTest.Document.Reader
import LoadTest.Json.Basic
import LoadTest.Workload.Model

set_option autoImplicit false

namespace LoadTest

/-! ## Kinds -/

namespace RequestKind

/-- The identifiers of all kinds. -/
def identifiers : List String := all.map identifier

/-- Write a kind. -/
def toJson (k : RequestKind) : Json := .text k.identifier

/-- Read a kind. -/
def read (d : Document) : Decoded RequestKind := d.readVariant identifiers ofIdentifier?

/-- Read a kind that is a tag. -/
def readTag (d : Document) : Decoded RequestKind := do
  let s ← d.readVariantName
  Document.variantNamed identifiers ofIdentifier? s

end RequestKind

/-! ## Parts of a request -/

namespace ThinkTime

/-- Write a think time. -/
def toJson (t : ThinkTime) : Json :=
  .object [("mean_ms", .integer t.mean.toNat), ("deviation_ms", .integer t.deviation.toNat)]

/-- The members of a think time met so far. -/
structure Slots where
  mean : Option UInt64
  deviation : Option UInt64

/-- The mean must be given; without a deviation there is none. -/
def reader : RecordReader Slots ThinkTime where
  name := "ThinkTime"
  members := ["mean_ms", "deviation_ms"]
  optional i := i == 1
  blank := ⟨none, none⟩
  isSet
    | 0, s => s.mean.isSome
    | _, s => s.deviation.isSome
  fill
    | 0, d, s => d.readUInt64.map fun v => { s with mean := some v }
    | _, d, s => d.readUInt64.map fun v => { s with deviation := some v }
  finish s :=
    match s.mean with
    | none => Decoded.misfit (.missingMember "mean_ms")
    | some m => .ok ⟨m, s.deviation.getD 0⟩

/-- Read a think time. -/
def read (form : ArrayForm) (d : Document) : Decoded ThinkTime := reader.read form d

/-- The members that are asked for. -/
def outline : Outline := .ofNames reader.members

/-- An absent think time is written as nothing. -/
def members : Option ThinkTime → List (String × Json)
  | none => []
  | some t => [("think_time", t.toJson)]

end ThinkTime

/-- Two texts met so far. -/
structure TextSlots where
  first : Option String
  second : Option String

/-- A record of two texts, both of which must be given. -/
def textPairReader {α : Type} (name first second : String) (make : String → String → α) :
    RecordReader TextSlots α where
  name := name
  members := [first, second]
  optional _ := false
  blank := ⟨none, none⟩
  isSet
    | 0, s => s.first.isSome
    | _, s => s.second.isSome
  fill
    | 0, d, s => d.readText.map fun v => { s with first := some v }
    | _, d, s => d.readText.map fun v => { s with second := some v }
  finish s :=
    match s.first, s.second with
    | none, _ => Decoded.misfit (.missingMember first)
    | _, none => Decoded.misfit (.missingMember second)
    | some a, some b => .ok (make a b)

namespace Property

/-- Write a property. -/
def toJson (p : Property) : Json := .object [("key", .text p.key), ("value", .text p.value)]

/-- Both members must be given. -/
def reader : RecordReader TextSlots Property := textPairReader "Property" "key" "value" Property.mk

/-- Read a property. -/
def read (form : ArrayForm) (d : Document) : Decoded Property := reader.read form d

end Property

namespace Parameter

/-- Write a parameter. -/
def toJson (p : Parameter) : Json := .object [("name", .text p.name), ("value", .text p.value)]

/-- Both members must be given. -/
def reader : RecordReader TextSlots Parameter :=
  textPairReader "Parameter" "name" "value" Parameter.mk

/-- Read a parameter. -/
def read (form : ArrayForm) (d : Document) : Decoded Parameter := reader.read form d

end Parameter

namespace Assertion

/-- Write a pattern. -/
def toJson (a : Assertion) : Json := .object [("pattern_to_test", .text a.pattern)]

/-- The pattern must be given. -/
def reader : RecordReader (Option String) Assertion where
  name := "Assertion"
  members := ["pattern_to_test"]
  optional _ := false
  blank := none
  isSet _ s := s.isSome
  fill _ d _ := d.readText.map some
  finish
    | none => Decoded.misfit (.missingMember "pattern_to_test")
    | some s => .ok ⟨s⟩

/-- Read a pattern. -/
def read (form : ArrayForm) (d : Document) : Decoded Assertion := reader.read form d

end Assertion

/-! ## Requests -/

/-- The members of a request met so far; SOAP requests have no parameters. -/
structure RequestSlots where
  id : Option String
  properties : Option (List Property)
  parameters : Option (List Parameter)
  assertions : Option (List Assertion)
  thinkTime : Option (Option ThinkTime)

/-- No member met. -/
def RequestSlots.blank : RequestSlots := ⟨none, none, none, none, none⟩

namespace SoapRequest

/-- The members of a request as they are written. -/
def members (r : SoapRequest) : List (String × Json) :=
  [("e_id", .text r.id), ("properties", .array (r.properties.map Property.toJson)),
    ("assertions", .array (r.assertions.map Assertion.toJson))] ++ ThinkTime.members r.thinkTime

/-- Write a request without its kind. -/
def toJson (r : SoapRequest) : Json := .object r.members

/-- Only the identifier must be given. -/
def reader (form : ArrayForm) : RecordReader RequestSlots SoapRequest where
  name := "SoapRequest"
  members := ["e_id", "properties", "assertions", "think_time"]
  optional i := 0 < i
  blank := .blank
  isSet
    | 0, s => s.id.isSome
    | 1, s => s.properties.isSome
    | 2, s => s.assertions.isSome
    | _, s => s.thinkTime.isSome
  fill
    | 0, d, s => d.readText.map fun v => { s with id := some v }
    | 1, d, s => (d.readList (Property.read form)).map fun v => { s with properties := some v }
    | 2, d, s => (d.readList (Assertion.read form)).map fun v => { s with assertions := some v }
    | _, d, s => (d.readOption (ThinkTime.read form)).map fun v => { s with thinkTime := some v }
  finish s :=
    match s.id with
    | none => Decoded.misfit (.missingMember "e_id")
    | some id => .ok ⟨id, s.properties.getD [], s.assertions.getD [], s.thinkTime.getD none⟩

/-- Read a request without its kind. -/
def read (form : ArrayForm) (d : Document) : Decoded SoapRequest := (reader form).read form d

end SoapRequest

namespace HttpRequest

/-- The members of a request as they are written. -/
def members (r : HttpRequest) : List (String × Json) :=
  [("e_id", .text r.id), ("properties", .array (r.properties.map Property.toJson)),
    ("parameters", .array (r.parameters.map Parameter.toJson)),
    ("assertions", .array (r.assertions.map Assertion.toJson))] ++ ThinkTime.members r.thinkTime

/-- Write a request without its kind. -/
def toJson (r : HttpRequest) : Json := .object r.members

/-- Only the identifier must be given. -/
def reader (form : ArrayForm) : RecordReader RequestSlots HttpRequest where
  name := "HttpRequest"
  members := ["e_id", "properties", "parameters", "assertions", "think_time"]
  optional i := 0 < i
  blank := .blank
  isSet
    | 0, s => s.id.isSome
    | 1, s => s.properties.isSome
    | 2, s => s.parameters.isSome
    | 3, s => s.assertions.isSome
    | _, s => s.thinkTime.isSome
  fill
    | 0, d, s => d.readText.map fun v => { s with id := some v }
    | 1, d, s => (d.readList (Property.read form)).map fun v => { s with properties := some v }
    | 2, d, s => (d.readList (Parameter.read form)).map fun v => { s with parameters := some v }
    | 3, d, s => (d.readList (Assertion.read form)).map fun v => { s with assertions := some v }
    | _, d, s => (d.readOption (ThinkTime.read form)).map fun v => { s with thinkTime := some v }
  finish s :=
    match s.id with
    | none => Decoded.misfit (.missingMember "e_id")
    | some id =>
      .ok ⟨id, s.properties.getD [], s.parameters.getD [], s.assertions.getD [],
        s.thinkTime.getD none⟩

/-- Read a request without its kind. -/
def read (form : ArrayForm) (d : Document) : Decoded HttpRequest := (reader form).read form d

end HttpRequest

namespace Request

/-- The member that holds the kind. -/
def tagName : String := "type"

/-- The members of a request behind its kind. -/
def contentMembers : Request → List (String × Json)
  | soap r => r.members
  | http r => r.members

/-- Write a request, its kind first. -/
def toJson (r : Request) : Json := .object ((tagName, r.kind.toJson) :: r.contentMembers)

/-- Read the content of a request of a kind. -/
def readContent (d : Document) : RequestKind → Decoded Request
  | .soap => (SoapRequest.read .counted d).map soap
  | .http => (HttpRequest.read .counted d).map http

/-- Read a request. -/
def read (d : Document) : Decoded Request := do
  let r ← d.readTagged "Request" tagName RequestKind.readTag
  readContent r.2 r.1

end Request

/-! ## Workloads -/

namespace Workload

/-- Write a workload. -/
def toJson (w : Workload) : Json :=
  .object ([("name", .text w.name), ("requests", .array (w.requests.map Request.toJson))]
    ++ ThinkTime.members w.thinkTime)

/-- The members of a workload met so far. -/
structure Slots where
  name : Option String
  requests : Option (List Request)
  thinkTime : Option (Option ThinkTime)

/-- Every member may be left out. -/
def reader (form : ArrayForm) : RecordReader Slots Workload where
  name := "WorkloadModel"
  members := ["name", "requests", "think_time"]
  optional _ := true
  blank := ⟨none, none, none⟩
  isSet
    | 0, s => s.name.isSome
    | 1, s => s.requests.isSome
    | _, s => s.thinkTime.isSome
  fill
    | 0, d, s => d.readText.map fun v => { s with name := some v }
    | 1, d, s => (d.readList Request.read).map fun v => { s with requests := some v }
    | _, d, s => (d.readOption (ThinkTime.read form)).map fun v => { s with thinkTime := some v }
  finish s := .ok ⟨s.name.getD "", s.requests.getD [], s.thinkTime.getD none⟩

/-- Read a workload. -/
def read (form : ArrayForm) (d : Document) : Decoded Workload := (reader form).read form d

/-- The members that are asked for. Requests are taken in as a whole. -/
def outline : Outline :=
  .record [("name", .whole), ("requests", .whole), ("think_time", ThinkTime.outline)]

end Workload

end LoadTest
