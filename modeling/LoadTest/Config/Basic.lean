/-
Configurations of a plan: everything but the workload that shapes the tree.

Every setting has a default, and the defaults together are `PlanConfig.standard`.
A filter is named by a `FilterSpec`, from which the filter itself is made.
-/
import LoadTest.Filter.Standard
import LoadTest.Plan.Layout

set_option autoImplicit false

namespace LoadTest

/-- A filter as a configuration names it. -/
inductive FilterSpec where
  | identity
  | headerDefaults (headers : Filter.Headers)
  | thinkTime (fallback : Option ThinkTime)
  | resultCollector (filename : Option String)
  deriving DecidableEq

namespace FilterSpec

/-- The filter that is meant. -/
def build : FilterSpec → Filter
  | identity => .identity
  | headerDefaults headers => .headerDefaults headers
  | thinkTime fallback => .thinkTime fallback
  | resultCollector filename => .resultCollector filename

/-- Equal but for the order of headers. -/
def same : FilterSpec → FilterSpec → Bool
  | identity, identity => true
  | headerDefaults a, headerDefaults b => a.same b
  | thinkTime a, thinkTime b => a == b
  | resultCollector a, resultCollector b => a == b
  | _, _ => false

/-- Equal one by one. -/
def sameAll : List FilterSpec → List FilterSpec → Bool
  | [], [] => true
  | a :: as, b :: bs => a.same b && sameAll as bs
  | _, _ => false

end FilterSpec

/-- The settings of a plan. -/
structure PlanConfig where
  /-- The name of the plan; without it the plan is named after the workload. -/
  planName : Option String
  threadGroup : ThreadGroup
  cookieManager : Bool
  /-- The properties that new elements start with. -/
  defaults : ElementDefaults
  /-- The filters, in order of application. -/
  filters : List FilterSpec

namespace PlanConfig

/-- Standard thread group with a cookie manager, and nothing else. -/
def standard : PlanConfig := ⟨none, .standard, true, .empty, []⟩

instance : Inhabited PlanConfig := ⟨standard⟩

/-- Equal but for the order of properties and headers. -/
def same (a b : PlanConfig) : Bool :=
  a.planName == b.planName && a.threadGroup == b.threadGroup
    && a.cookieManager == b.cookieManager && a.defaults.same b.defaults
    && FilterSpec.sameAll a.filters b.filters

/-- The scaffolding that the configuration describes. -/
def scaffold (c : PlanConfig) : SingleGroup := ⟨c.planName, c.threadGroup, c.cookieManager⟩

/-- The filters of the configuration. -/
def filterChain (c : PlanConfig) : List Filter := c.filters.map FilterSpec.build

end PlanConfig

end LoadTest
