/-
Trees: empty, or a single root node.

The edits answer together with the tree that they leave. A failing edit leaves
the tree as it was; its answer says why it failed. Looking a node up and
changing it go through the same path, so an edit succeeds exactly where a
look-up does.
-/
import LoadTest.Tree.Node

set_option autoImplicit false

namespace LoadTest

/-- A tree of elements with at most one root. -/
structure Tree where
  /-- The root, unless the tree is empty. -/
  root : Option Node

namespace Tree

/-- The tree without nodes. -/
def empty : Tree := ⟨none⟩

/-- The tree with a given root. -/
def ofNode (n : Node) : Tree := ⟨some n⟩

/-- The tree with a single element. -/
def ofElement (e : Element) : Tree := ofNode (.leaf e)

instance : Inhabited Tree := ⟨empty⟩

/-- Whether there is no node. -/
def isEmpty (t : Tree) : Bool := t.root.isNone

/-- The number of nodes. -/
def nodeCount (t : Tree) : Nat := t.root.elim 0 Node.nodeCount

/-- The number of levels. -/
def height (t : Tree) : Nat := t.root.elim 0 Node.height

/-- Same shape, with alike elements at corresponding places. -/
def alike (a b : Tree) : Bool :=
  match a.root, b.root with
  | none, none => true
  | some m, some n => m.alike n
  | _, _ => false

/-! ## Looking up -/

/-- The node at a path. -/
def get? (t : Tree) (p : Path) : Option Node := t.root >>= Node.get? p

/-- The element at a path. -/
def element? (t : Tree) (p : Path) : Option Element := (t.get? p).map Node.element

/-! ## Editing -/

/-- Change the node at a path; no change if there is none. -/
def modify (t : Tree) (p : Path) (f : Node → Node) : Tree := ⟨t.root.map (Node.modify f p)⟩

/-- Change the root; no change to the empty tree. -/
def modifyRoot (t : Tree) (f : Node → Node) : Tree := t.modify Path.root f

/-- Append the root of a fragment below the node at `parent`. The answer is the
path of the attached subtree, or none for an empty fragment. -/
def attach (t : Tree) (parent : Path) (fragment : Tree) : Except EditError (Option Path) × Tree :=
  match t.get? parent, fragment.root with
  | none, _ => (.error (.noSuchNode parent), t)
  | some _, none => (.ok none, t)
  | some n, some c =>
    (.ok (some (parent.child n.children.length)), t.modify parent (·.pushChild c))

/-- Insert a node as child number `i` of the node at `parent`. The answer is the
path of the inserted subtree. -/
def insert (t : Tree) (parent : Path) (i : Nat) (c : Node) : Except EditError Path × Tree :=
  match t.get? parent with
  | none => (.error (.noSuchNode parent), t)
  | some n =>
    match n.insertChild i c with
    | .error e => (.error e, t)
    | .ok n' => (.ok (parent.child i), t.modify parent fun _ => n')

/-- Take the subtree at a path out. Taking the root out leaves the empty tree. -/
def remove (t : Tree) (p : Path) : Option Node × Tree :=
  match p.parent?, p.last? with
  | some parent, some i =>
    match t.get? parent with
    | none => (none, t)
    | some n =>
      match n.removeChild i with
      | (none, _) => (none, t)
      | (some c, n') => (some c, t.modify parent fun _ => n')
  | _, _ => (t.root, empty)

@[simp] theorem get?_root (t : Tree) : t.get? [] = t.root := by
  cases t with
  | mk root => cases root <;> rfl

@[simp] theorem isEmpty_empty : empty.isEmpty = true := rfl

@[simp] theorem nodeCount_empty : empty.nodeCount = 0 := rfl

end Tree

end LoadTest
