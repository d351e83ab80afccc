/-
Layouts: how the fragments of a workload become one tree.

The usual layout is a plan with a single thread group that holds a cookie
manager, if it is wanted, and then one fragment per request in order. All
fragments are built before anything of the scaffolding, so a request that
cannot be transformed leaves no plan and no thread group behind.
-/
import LoadTest.Plan.Registry

set_option autoImplicit false

namespace LoadTest

/-- The settings of a thread group. -/
structure ThreadGroup where
  name : String
  /-- The number of users. -/
  threads : UInt32
  /-- The seconds until all users have started. -/
  rampUp : UInt32
  /-- The iterations of each user; negative for no end. -/
  loops : Int32
  deriving DecidableEq

namespace ThreadGroup

/-- One user who runs once. -/
def standard : ThreadGroup := ⟨"Thread Group", 1, 1, 1⟩

instance : Inhabited ThreadGroup := ⟨standard⟩

/-- The number of users of a thread group. -/
def threadsKey : String := "ThreadGroup.num_threads"

/-- The seconds until all users of a thread group have started. -/
def rampUpKey : String := "ThreadGroup.ramp_time"

/-- The iterations of each user of a thread group. -/
def loopsKey : String := "LoopController.loops"

/-- Write the settings onto an element. -/
def apply (g : ThreadGroup) (e : Element) : Element :=
  (e.withName g.name).withProperties
    [(threadsKey, .integer g.threads.toUInt64.toInt64),
      (rampUpKey, .integer g.rampUp.toUInt64.toInt64),
      (loopsKey, .integer g.loops.toInt64)]

@[simp] theorem kind_apply (g : ThreadGroup) (e : Element) : (g.apply e).kind = e.kind := rfl

@[simp] theorem name_apply (g : ThreadGroup) (e : Element) : (g.apply e).name = g.name := rfl

/-- The three settings are written, and the other properties are left alone. -/
theorem property?_apply (g : ThreadGroup) (e : Element) (key : String) :
    (g.apply e).property? key
      = if loopsKey = key then some (.integer g.loops.toInt64)
        else if rampUpKey = key then some (.integer g.rampUp.toUInt64.toInt64)
        else if threadsKey = key then some (.integer g.threads.toUInt64.toInt64)
        else e.property? key := by
  show ((((e.withName g.name).withProperty threadsKey _).withProperty rampUpKey _).withProperty
    loopsKey _).property? key = _
  rw [Element.property?_withProperty, Element.property?_withProperty,
    Element.property?_withProperty]
  rfl

end ThreadGroup

/-- A way to build the tree of a workload. -/
abbrev Layout := Registry → ElementDefaults → Workload → Build Tree

/-- A plan with one thread group. -/
structure SingleGroup where
  /-- The name of the plan; without it the plan is named after the workload. -/
  planName : Option String
  group : ThreadGroup
  /-- Whether the thread group starts with a cookie manager. -/
  cookieManager : Bool
  deriving DecidableEq

namespace SingleGroup

/-- Standard thread group, cookie manager, no name. -/
def standard : SingleGroup := ⟨none, .standard, true⟩

instance : Inhabited SingleGroup := ⟨standard⟩

/-- Name the plan: by its own name if it has one, be it empty, and otherwise
after the workload if that has a name. -/
def rename (s : SingleGroup) (w : Workload) (plan : Element) : Element :=
  match s.planName with
  | some name => plan.withName name
  | none => if w.name.isEmpty then plan else plan.withName w.name

/-- The thread group without fragments. -/
def groupNode (s : SingleGroup) (d : ElementDefaults) : Logged Node := do
  let e ← d.create .threadGroup
  if s.cookieManager then
    let c ← d.create .cookieManager
    pure (.mk (s.group.apply e) [.leaf c])
  else
    pure (.leaf (s.group.apply e))

/-- Append fragments below a node. -/
def attachFragments (n : Node) (fragments : List Node) : Node :=
  n.withChildren (n.children ++ fragments)

/-- The plan around finished fragments. -/
def assemble (s : SingleGroup) (d : ElementDefaults) (w : Workload) (fragments : List Node) :
    Logged Tree := do
  let plan ← d.create .testPlan
  let group ← s.groupNode d
  Logged.event (.threadGroupAssembled fragments.length)
  pure (.ofNode (.mk (s.rename w plan) [attachFragments group fragments]))

/-- Build the plan of a workload. -/
def layout (s : SingleGroup) : Layout := fun r d w => do
  let fragments ← r.fragments d w.requests
  ExceptT.lift (s.assemble d w fragments)

end SingleGroup

end LoadTest
