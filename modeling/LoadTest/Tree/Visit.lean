/-
Visiting every node in place.

A visitor is shown a node with its path and a state, and answers with the node
that is to stand there and the next state. The children of the *answer* are
visited afterwards, so a visitor meets what it has just added, and it may keep
adding: such a visit never ends. The visit is therefore bounded by the number
of levels it may go down, and has no result when the bound is too small.
-/
import LoadTest.Tree.Basic

set_option autoImplicit false

namespace LoadTest

/-- What is done at a node: the node that replaces it, and the next state. -/
abbrev Visitor (σ : Type) := Path → Node → σ → Node × σ

namespace Visitor

variable {σ : Type}

/-- Visit subtrees from the left, numbering them from `i`. -/
def children (visit : Path → Node → σ → Option (Node × σ)) (p : Path) :
    Nat → List Node → σ → Option (List Node × σ)
  | _, [], s => some ([], s)
  | i, n :: ns, s =>
    match visit (Path.child p i) n s with
    | none => none
    | some (n', s') =>
      match children visit p (i + 1) ns s' with
      | none => none
      | some (ns', s'') => some (n' :: ns', s'')

/-- Visit a node, then the children it has been left with, going down at most
`levels` levels. -/
def node (f : Visitor σ) : Nat → Path → Node → σ → Option (Node × σ)
  | 0, _, _, _ => none
  | levels + 1, p, n, s =>
    match children (node f levels) p 0 (f p n s).1.children (f p n s).2 with
    | none => none
    | some (cs, s') => some ((f p n s).1.withChildren cs, s')

end Visitor

namespace Tree

variable {σ : Type}

/-- Visit the nodes of a tree, going down at most `levels` levels. -/
def visitWithin (levels : Nat) (t : Tree) (f : Visitor σ) (s : σ) : Option (Tree × σ) :=
  match t.root with
  | none => some (t, s)
  | some n => (f.node levels Path.root n s).map fun r => (ofNode r.1, r.2)

/-- Visit the nodes of a tree with one level more than it has nodes. That is
enough for a visitor under which no node grows, and for one that adds a level
of leaves it leaves alone. -/
def visit (t : Tree) (f : Visitor σ) (s : σ) : Option (Tree × σ) :=
  t.visitWithin (t.nodeCount + 1) f s

end Tree

end LoadTest
