/-
From workload to plan.

The layout builds a tree from the workload's fragments, then the filters
change it in order. A failure of the layout ends the run before any filter is
reached. Compiling is this run with everything taken from a configuration.
-/
import LoadTest.Config.Basic

set_option autoImplicit false

namespace LoadTest.Plan

/-- Filter a finished tree, if there are filters, and note that the plan is
done. No filters and an empty chain of filters come to the same. -/
def finish (d : ElementDefaults) (filters : Option (List Filter)) (w : Workload) (t : Tree) :
    Logged Tree := do
  let t' ← Filter.chain (filters.getD []) d w t
  Logged.event (.planBuilt w.name t'.nodeCount (filters.getD []).length)
  pure t'

/-- Build the tree of a workload and filter it. -/
def transform (layout : Layout) (r : Registry) (d : ElementDefaults)
    (filters : Option (List Filter)) (w : Workload) : Build Tree := do
  ExceptT.lift (Logged.event (.transformingWorkload w.name w.requests.length))
  let t ← layout r d w
  ExceptT.lift (finish d filters w t)

/-- Build the plan of a workload as a configuration says. -/
def compile (c : PlanConfig) (w : Workload) : Build Tree :=
  transform c.scaffold.layout .standard c.defaults (some c.filterChain) w

end LoadTest.Plan
