/-
Filters: steps that change a finished tree, and chains of them.

A filter is given the tree, the workload that the tree was built from and the
defaults with which its elements were created. A chain hands each filter the
tree that its predecessor left, and notes the size of the tree before and
after every step.
-/
import LoadTest.Plan.Fragment
import LoadTest.Tree.Traversal

set_option autoImplicit false

namespace LoadTest

/-- A step that changes a tree. -/
structure Filter where
  /-- What the filter is called in the journal. -/
  name : String
  /-- The tree after the step. -/
  apply : ElementDefaults → Workload → Tree → Logged Tree

namespace Filter

/-- Apply a filter and note that it was applied. -/
def step (f : Filter) (d : ElementDefaults) (w : Workload) (t : Tree) : Logged Tree := do
  let t' ← f.apply d w t
  Logged.event (.filterApplied f.name t.nodeCount t'.nodeCount t'.digest)
  pure t'

/-- Apply filters one after another. -/
def chain (fs : List Filter) (d : ElementDefaults) (w : Workload) (t : Tree) : Logged Tree :=
  match fs with
  | [] => pure t
  | f :: fs => do
    let t' ← f.step d w t
    chain fs d w t'

/-- The node that owns what belongs to a user: the first thread group, or the
root of a tree without thread groups. The empty tree has no such node. -/
def scope? (t : Tree) : Option Path :=
  if t.isEmpty then none else some ((t.findKind .threadGroup).head?.getD Path.root)

end Filter

end LoadTest
