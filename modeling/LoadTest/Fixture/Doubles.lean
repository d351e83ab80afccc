/-
Transformers, layouts and filters that stand in for the usual ones.

A recording filter notes what it was given and leaves a marker below the root,
so the order of a chain can be read off its result. The marker transformers
accept requests of either kind. The other filters break the rules that the
usual filters keep: they take nodes away or put them in another order.
-/
import LoadTest.Filter.Basic
import LoadTest.Plan.Layout
import LoadTest.Tree.Visit

set_option autoImplicit false

namespace LoadTest

namespace Fixture

/-! ## Transformers and layouts -/

/-- The transformer that is said to be for a kind of request, and that turns
any request into a result collector named after it. -/
def markerTransformer (kind : RequestKind) : RequestTransformer where
  kind := kind
  transform d r := do
    let e ← ExceptT.lift (d.create .resultCollector)
    pure (.leaf (e.withName r.id))

/-- The layout whose tree is the first request's fragment. -/
def firstFragment : Layout := fun r d w =>
  match w.requests with
  | [] => pure .empty
  | q :: _ => do
    let n ← r.transform d q
    pure (.ofNode n)

/-- The layout that puts all fragments directly below the plan. -/
def flat : Layout := fun r d w => do
  let fragments ← r.fragments d w.requests
  let plan ← ExceptT.lift (d.create .testPlan)
  pure (.ofNode (.mk plan fragments))

/-! ## Markers -/

/-- How the name of a marker begins. -/
def markerPrefix : String := "marker:"

/-- The names of the markers below the root, in order. -/
def markers (t : Tree) : List String :=
  match t.root with
  | none => []
  | some n =>
    (n.children.map fun c => c.element.name).filter fun s =>
      markerPrefix.toList.isPrefixOf s.toList

/-- What a recording filter with a given label sees of a tree. -/
def observe (label : String) (t : Tree) : Observation := ⟨label, t.digest, t.nodeCount, markers t⟩

/-! ## Filters -/

/-- Note the tree and append a marker to the root. -/
def recording (label : String) : Filter where
  name := label
  apply d _ t := do
    Logged.note (.observed (observe label t))
    if t.isEmpty then pure t
    else
      let e ← d.create .resultCollector
      pure (t.modifyRoot (·.pushChild (.leaf (e.withName (markerPrefix ++ label)))))

/-- Take everything away. -/
def clear : Filter where
  name := "clear"
  apply _ _ _ := pure .empty

mutual
/-- The node with the children of every node in reverse order. -/
def reverseNode : Node → Node
  | .mk e cs => .mk e (reverseForest cs).reverse

/-- The subtrees reversed one by one. -/
def reverseForest : List Node → List Node
  | [] => []
  | n :: ns => reverseNode n :: reverseForest ns
end

/-- Reverse the children of every node. -/
def reverse : Filter where
  name := "reverse"
  apply _ _ t := pure ⟨t.root.map reverseNode⟩

/-- Keep nothing but the root's first child. -/
def unwrap : Filter where
  name := "unwrap"
  apply _ _ t := pure ⟨t.root >>= fun n => n.children.head?⟩

/-- Take away the first child of every node that has more than one. -/
def dropFirst : Filter where
  name := "drop_first"
  apply _ _ t :=
    let f : Visitor Unit := fun _ n s =>
      (if n.children.length > 1 then n.withChildren n.children.tail else n, s)
    match t.visit f () with
    | none => pure t
    | some (t', _) => pure t'

end Fixture

end LoadTest
