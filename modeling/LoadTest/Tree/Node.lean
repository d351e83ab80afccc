/-
Nodes: an element and the subtrees below it, in order.

A node owns its children, so there is nothing in a tree that is not connected
to its root. The functions here look at or change one node; where they have to
reach all nodes they run over a node and over a list of nodes side by side.
-/
import LoadTest.Element.Basic
import LoadTest.Tree.Error

set_option autoImplicit false

namespace LoadTest

/-- An element with subtrees below it. -/
inductive Node where
  | mk (element : Element) (children : List Node)

namespace Node

/-- The element of the node. -/
def element : Node → Element
  | mk e _ => e

/-- The subtrees below the node, in order. -/
def children : Node → List Node
  | mk _ cs => cs

/-- A node without children. -/
def leaf (e : Element) : Node := mk e []

instance : Inhabited Node := ⟨leaf default⟩

@[simp] theorem element_mk (e : Element) (cs : List Node) : (mk e cs).element = e := rfl

@[simp] theorem children_mk (e : Element) (cs : List Node) : (mk e cs).children = cs := rfl

@[simp] theorem mk_element_children (n : Node) : mk n.element n.children = n := by
  cases n
  rfl

@[simp] theorem element_leaf (e : Element) : (leaf e).element = e := rfl

@[simp] theorem children_leaf (e : Element) : (leaf e).children = [] := rfl

/-! ## Counting and comparing -/

mutual
/-- The number of nodes, this one included. -/
def nodeCount : Node → Nat
  | mk _ cs => forestCount cs + 1

/-- The number of nodes in a list of subtrees. -/
def forestCount : List Node → Nat
  | [] => 0
  | n :: ns => nodeCount n + forestCount ns
end

mutual
/-- The number of levels. -/
def height : Node → Nat
  | mk _ cs => forestHeight cs + 1

/-- The number of levels of the tallest subtree. -/
def forestHeight : List Node → Nat
  | [] => 0
  | n :: ns => max (height n) (forestHeight ns)
end

mutual
/-- Same shape, with alike elements at corresponding places. -/
def alike : Node → Node → Bool
  | mk e cs, mk e' cs' => e.alike e' && forestAlike cs cs'

/-- Subtrees alike one by one. -/
def forestAlike : List Node → List Node → Bool
  | [], [] => true
  | n :: ns, n' :: ns' => alike n n' && forestAlike ns ns'
  | _, _ => false
end

theorem nodeCount_eq (n : Node) : n.nodeCount = forestCount n.children + 1 := by
  cases n
  rfl

theorem nodeCount_pos (n : Node) : 0 < n.nodeCount := by
  rw [nodeCount_eq]
  exact Nat.succ_pos _

theorem forestCount_append (ms ns : List Node) :
    forestCount (ms ++ ns) = forestCount ms + forestCount ns := by
  induction ms with
  | nil => simp [forestCount]
  | cons m ms ih => simp [forestCount, ih, Nat.add_assoc]

/-! ## Changing one node -/

/-- Put another element in the node. -/
def withElement (n : Node) (e : Element) : Node := mk e n.children

/-- Put other subtrees below the node. -/
def withChildren (n : Node) (cs : List Node) : Node := mk n.element cs

/-- Append a subtree. -/
def pushChild (n c : Node) : Node := n.withChildren (n.children ++ [c])

/-- Insert a subtree in front of position `i`; only for `i` up to the number of
children. -/
def insertChild (n : Node) (i : Nat) (c : Node) : Except EditError Node :=
  if i ≤ n.children.length then .ok (n.withChildren (n.children.insertIdx i c))
  else .error (.indexOutOfBounds i n.children.length)

/-- Take the subtree at position `i` out. -/
def removeChild (n : Node) (i : Nat) : Option Node × Node :=
  match n.children[i]? with
  | some c => (some c, n.withChildren (n.children.eraseIdx i))
  | none => (none, n)

/-- Keep the subtrees that pass a test. -/
def retainChildren (n : Node) (keep : Node → Bool) : Node :=
  n.withChildren (n.children.filter keep)

/-- A further child adds its nodes. -/
theorem nodeCount_pushChild (n c : Node) :
    (n.pushChild c).nodeCount = n.nodeCount + c.nodeCount := by
  cases n
  simp [pushChild, withChildren, nodeCount, forestCount_append, forestCount]
  omega

/-! ## Reaching nodes by path -/

/-- The node that a path leads to. -/
def get? : Path → Node → Option Node
  | [], n => some n
  | i :: p, n => n.children[i]? >>= get? p

/-- Apply a change at the node that a path leads to; no change if there is none. -/
def modify (f : Node → Node) : Path → Node → Node
  | [], n => f n
  | i :: p, n => n.withChildren (n.children.modify i (modify f p))

@[simp] theorem get?_root (n : Node) : get? [] n = some n := rfl

/-- A path goes down by its first step, if there is such a child, and on from there. -/
theorem get?_cons (i : Nat) (p : Path) (n : Node) :
    get? (i :: p) n = n.children[i]? >>= get? p := rfl

end Node

end LoadTest
