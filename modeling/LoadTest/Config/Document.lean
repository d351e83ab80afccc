/-
Configurations as documents.

Every member of a configuration may be left out and then has its default. A
filter carries its kind as a tag among its members.
-/
import LoadTest.Config.Basic
import LoadTest.Element.Document
import LoadTest.Workload.Document

set_option autoImplicit false

namespace LoadTest

/-- A value that may be absent; null if it is. -/
def Json.ofOption {α : Type} (toJson : α → Json) : Option α → Json
  | none => .null
  | some a => toJson a

/-! ## Thread groups -/

namespace ThreadGroup

/-- Write the settings of a thread group. -/
def toJson (g : ThreadGroup) : Json :=
  .object [("name", .text g.name), ("num_threads", .integer g.threads.toNat),
    ("ramp_up_secs", .integer g.rampUp.toNat), ("loops", .integer g.loops.toInt)]

/-- The members of a thread group met so far. -/
structure Slots where
  name : Option String
  threads : Option UInt32
  rampUp : Option UInt32
  loops : Option Int32

/-- Every member may be left out. -/
def reader : RecordReader Slots ThreadGroup where
  name := "ThreadGroupConfig"
  members := ["name", "num_threads", "ramp_up_secs", "loops"]
  optional _ := true
  blank := ⟨none, none, none, none⟩
  isSet
    | 0, s => s.name.isSome
    | 1, s => s.threads.isSome
    | 2, s => s.rampUp.isSome
    | _, s => s.loops.isSome
  fill
    | 0, d, s => d.readText.map fun v => { s with name := some v }
    | 1, d, s => d.readUInt32.map fun v => { s with threads := some v }
    | 2, d, s => d.readUInt32.map fun v => { s with rampUp := some v }
    | _, d, s => d.readInt32.map fun v => { s with loops := some v }
  finish s :=
    .ok ⟨s.name.getD standard.name, s.threads.getD standard.threads,
      s.rampUp.getD standard.rampUp, s.loops.getD standard.loops⟩

/-- Read the settings of a thread group. -/
def read (form : ArrayForm) (d : Document) : Decoded ThreadGroup := reader.read form d

/-- The members that are asked for. -/
def outline : Outline := .ofNames reader.members

end ThreadGroup

/-! ## Filters -/

/-- The kinds of filter. -/
inductive FilterKind where
  | identity
  | headerDefaults
  | thinkTime
  | resultCollector
  deriving DecidableEq

namespace FilterKind

/-- Every kind, in declaration order. -/
def all : List FilterKind := [identity, headerDefaults, thinkTime, resultCollector]

/-- The identifier of a kind. -/
def identifier : FilterKind → String
  | identity => "identity"
  | headerDefaults => "header_defaults"
  | thinkTime => "think_time"
  | resultCollector => "result_collector"

/-- The kind with a given identifier. -/
def ofIdentifier? (s : String) : Option FilterKind := all.find? fun k => k.identifier == s

/-- Read a kind that is a tag. -/
def readTag (d : Document) : Decoded FilterKind := do
  let s ← d.readVariantName
  Document.variantNamed (all.map identifier) ofIdentifier? s

end FilterKind

/-- A record with one member that may be left out. -/
def singleReader {α : Type} (name member : String) (default : α) (read : Document → Decoded α) :
    RecordReader (Option α) α where
  name := name
  members := [member]
  optional _ := true
  blank := none
  isSet _ s := s.isSome
  fill _ d _ := (read d).map some
  finish s := .ok (s.getD default)

namespace FilterSpec

/-- The member that holds the kind. -/
def tagName : String := "kind"

/-- The kind of the filter. -/
def kind : FilterSpec → FilterKind
  | identity => .identity
  | headerDefaults _ => .headerDefaults
  | thinkTime _ => .thinkTime
  | resultCollector _ => .resultCollector

/-- The members behind the kind. -/
def contentMembers : FilterSpec → List (String × Json)
  | identity => []
  | headerDefaults headers =>
    [("headers", .object (headers.entries.map fun e => (e.1, Json.text e.2)))]
  | thinkTime fallback => [("default", Json.ofOption ThinkTime.toJson fallback)]
  | resultCollector filename => [("filename", Json.ofOption Json.text filename)]

/-- Write a filter, its kind first. -/
def toJson (f : FilterSpec) : Json :=
  .object ((tagName, .text f.kind.identifier) :: f.contentMembers)

/-- Read headers. A repeated name keeps its place and takes the last value. -/
def readHeaders (d : Document) : Decoded Filter.Headers :=
  (d.readPairs Document.readText Document.readText).map OrderedMap.ofList

/-- The filter that does nothing asks for no member and passes over those that
are given; as an array it must have no element. -/
def readIdentity : Document → Decoded FilterSpec
  | .sequence (_ :: ds) _ => Decoded.misfit (.longSequence (ds.length + 1) 0)
  | _ => .ok identity

/-- Read the content of a filter of a kind. -/
def readContent (d : Document) : FilterKind → Decoded FilterSpec
  | .identity => readIdentity d
  | .headerDefaults =>
    ((singleReader "FilterSpec" "headers" OrderedMap.empty readHeaders).read .counted d).map
      headerDefaults
  | .thinkTime =>
    ((singleReader "FilterSpec" "default" none (Document.readOption (ThinkTime.read .counted))).read
      .counted d).map thinkTime
  | .resultCollector =>
    ((singleReader "FilterSpec" "filename" none (Document.readOption Document.readText)).read
      .counted d).map resultCollector

/-- Read a filter. -/
def read (d : Document) : Decoded FilterSpec := do
  let r ← d.readTagged "FilterSpec" tagName FilterKind.readTag
  readContent r.2 r.1

end FilterSpec

/-! ## Configurations -/

namespace PlanConfig

/-- Write a configuration. -/
def toJson (c : PlanConfig) : Json :=
  .object [("test_plan_name", Json.ofOption Json.text c.planName),
    ("thread_group", c.threadGroup.toJson), ("cookie_manager", .bool c.cookieManager),
    ("element_defaults", c.defaults.toJson), ("filters", .array (c.filters.map FilterSpec.toJson))]

/-- The members of a configuration met so far. -/
structure Slots where
  planName : Option (Option String)
  threadGroup : Option ThreadGroup
  cookieManager : Option Bool
  defaults : Option ElementDefaults
  filters : Option (List FilterSpec)

/-- Every member may be left out. -/
def reader (form : ArrayForm) : RecordReader Slots PlanConfig where
  name := "PlanConfig"
  members := ["test_plan_name", "thread_group", "cookie_manager", "element_defaults", "filters"]
  optional _ := true
  blank := ⟨none, none, none, none, none⟩
  isSet
    | 0, s => s.planName.isSome
    | 1, s => s.threadGroup.isSome
    | 2, s => s.cookieManager.isSome
    | 3, s => s.defaults.isSome
    | _, s => s.filters.isSome
  fill
    | 0, d, s => (d.readOption Document.readText).map fun v => { s with planName := some v }
    | 1, d, s => (ThreadGroup.read form d).map fun v => { s with threadGroup := some v }
    | 2, d, s => d.readBool.map fun v => { s with cookieManager := some v }
    | 3, d, s => (ElementDefaults.read d).map fun v => { s with defaults := some v }
    | _, d, s => (d.readList FilterSpec.read).map fun v => { s with filters := some v }
  finish s :=
    .ok ⟨s.planName.getD standard.planName, s.threadGroup.getD standard.threadGroup,
      s.cookieManager.getD standard.cookieManager, s.defaults.getD standard.defaults,
      s.filters.getD standard.filters⟩

/-- Read a configuration. -/
def read (form : ArrayForm) (d : Document) : Decoded PlanConfig := (reader form).read form d

/-- The members that are asked for. Filters are taken in as a whole. -/
def outline : Outline :=
  .record [("test_plan_name", .whole), ("thread_group", ThreadGroup.outline),
    ("cookie_manager", .whole), ("element_defaults", .whole), ("filters", .whole)]

end PlanConfig

end LoadTest
