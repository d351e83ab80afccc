/-
Choosing nodes by what they are, and changing the chosen ones.

A selector is a list of conditions, all of which must hold. An alteration
lengthens the name of the chosen nodes, gives them another child and takes
their first child away, each only if asked to.
-/
import LoadTest.Tree.Visit

set_option autoImplicit false

namespace LoadTest

/-- Conditions on a node; one that is left out always holds. -/
structure Selector where
  kind : Option ElementKind
  name : Option String
  /-- A property that must be set. -/
  property : Option String
  /-- Whether the node must have no children, or must have some. -/
  leaf : Option Bool
  /-- Whether the node must be a sampler, or must be none. -/
  sampler : Option Bool

/-- Whether all conditions hold at a node. -/
def Selector.matches (s : Selector) (n : Node) : Bool :=
  s.kind.all (· == n.element.kind) && s.name.all (· == n.element.name)
    && s.property.all n.element.hasProperty && s.leaf.all (· == n.children.isEmpty)
    && s.sampler.all (· == n.element.kind.isSampler)

/-- What is done at chosen nodes, in the order of the fields. -/
structure Alteration where
  selector : Selector
  /-- Text to be appended to the name. -/
  suffix : Option String
  /-- A subtree to be appended to the children. -/
  extra : Option Node
  /-- Whether the first child is taken away in the end. -/
  dropFirst : Bool

namespace Alteration

/-- The node after the change. -/
def apply (r : Alteration) (n : Node) : Node :=
  let n := match r.suffix with
    | some s => n.withElement (n.element.withName (n.element.name ++ s))
    | none => n
  let n := match r.extra with
    | some c => n.pushChild c
    | none => n
  if r.dropFirst then (n.removeChild 0).2 else n

/-- The visitor that changes the chosen nodes and collects the paths it meets. -/
def visitor (r : Alteration) : Visitor (List Path) := fun p n ps =>
  (if r.selector.matches n then r.apply n else n, ps ++ [p])

/-- Change the chosen nodes of a tree. The answer is the paths met, in order.
The visit may go down as far as the tree and an added subtree together. -/
def run (r : Alteration) (t : Tree) : Option (Tree × List Path) :=
  t.visitWithin (t.nodeCount + r.extra.elim 0 Node.nodeCount + 1) r.visitor []

end Alteration

end LoadTest
