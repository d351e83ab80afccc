/-
Pre-order traversal: every node with its path, a node before its children.

The traversal keeps a stack of pending subtrees with their paths. It takes the
topmost, reports it, and puts its children on top, the first child uppermost.
The stack holds fewer and fewer nodes, so the traversal ends. Searching is
filtering the traversal.
-/
import LoadTest.Tree.Basic

set_option autoImplicit false

namespace LoadTest

namespace Traversal

/-- Subtrees still to be visited, the next one first. -/
abbrev Stack := List (Path × Node)

/-- The children of a node with their paths, in order. -/
def childrenAt (p : Path) (n : Node) : Stack :=
  n.children.mapIdx fun i c => (Path.child p i, c)

/-- The number of nodes still to be visited. -/
def pending (st : Stack) : Nat := Node.forestCount (st.map Prod.snd)

theorem map_snd_childrenAt (p : Path) (n : Node) :
    (childrenAt p n).map Prod.snd = n.children := by
  refine List.ext_getElem (by simp [childrenAt]) ?_
  intro i h₁ h₂
  simp [childrenAt]

theorem pending_expand (p : Path) (n : Node) (st : Stack) :
    pending (childrenAt p n ++ st) < pending ((p, n) :: st) := by
  cases n with
  | mk e cs =>
    simp only [pending, List.map_append, map_snd_childrenAt, Node.children_mk,
      Node.forestCount_append, List.map_cons, Node.forestCount, Node.nodeCount]
    omega

/-- All nodes of the pending subtrees, in the order of their visits. -/
def run : Stack → List (Path × Node)
  | [] => []
  | (p, n) :: st => (p, n) :: run (childrenAt p n ++ st)
termination_by st => pending st
decreasing_by exact pending_expand p n st

theorem run_nil : run [] = [] := by rw [run]

theorem run_cons (p : Path) (n : Node) (st : Stack) :
    run ((p, n) :: st) = (p, n) :: run (childrenAt p n ++ st) := by rw [run]

end Traversal

namespace Tree

/-- Every node with its path, in pre-order. -/
def depthFirst (t : Tree) : List (Path × Node) :=
  Traversal.run (t.root.toList.map fun n => (Path.root, n))

/-- The paths of the nodes that pass a test, in pre-order. -/
def findPaths (t : Tree) (test : Node → Bool) : List Path :=
  (t.depthFirst.filter fun e => test e.2).map Prod.fst

/-- The paths of the nodes of a kind, in pre-order. -/
def findKind (t : Tree) (kind : ElementKind) : List Path :=
  t.findPaths fun n => n.element.kind == kind

end Tree

end LoadTest
