/-
The elements of a tree, counted.

A tree is more than its elements, but what an edit may lose or double is an
element, so edits are accounted for in multisets. An element counts with its
name and with its properties in their order; two elements that are merely alike
are different here.

`Node.elements_modify` is the law of every change at a path: nothing but the
node at the path enters the account. It is stated as a balance of sums, because
what a change takes away need not be there under that name.
-/
import LoadTest.Proofs.Tree.Preorder
import Mathlib.Algebra.BigOperators.Group.List.Basic
import Mathlib.Algebra.Order.Group.Multiset
import Mathlib.Algebra.Ring.Nat
import Mathlib.Data.Multiset.Bind

set_option autoImplicit false

namespace LoadTest

namespace Node

/-- The elements of a node and of everything below it, as often as they occur. -/
def elements (n : Node) : Multiset Element := ↑(n.preorder.map fun v => v.2.element)

theorem card_elements (n : Node) : n.elements.card = n.nodeCount := by
  rw [elements, Multiset.coe_card, List.length_map, length_preorder]

theorem elements_mk (e : Element) (cs : List Node) :
    (mk e cs).elements = e ::ₘ (cs.map elements).sum := by
  rw [elements, map_preorder_mk, ← Multiset.cons_coe, element_mk, ← Multiset.coe_bind,
    Multiset.bind, Multiset.join, Multiset.map_coe, Multiset.sum_coe]
  rfl

theorem elements_eq (n : Node) : n.elements = n.element ::ₘ (n.children.map elements).sum := by
  cases n
  exact elements_mk _ _

/-- Other children bring their own elements and leave that of the node. -/
theorem elements_withChildren (n : Node) (cs : List Node) :
    (n.withChildren cs).elements = n.element ::ₘ (cs.map elements).sum :=
  elements_mk n.element cs

/-- A child that is put in is added, wherever it is put. -/
theorem elements_insertIdx (n c : Node) {i : Nat} (hi : i ≤ n.children.length) :
    (n.withChildren (n.children.insertIdx i c)).elements = n.elements + c.elements := by
  have hperm := (List.perm_insertIdx c n.children hi).map elements
  rw [elements_withChildren, hperm.sum_eq, List.map_cons, List.sum_cons, n.elements_eq,
    Multiset.cons_add, add_comm c.elements]

/-- A child that is taken out is missing, wherever it stood. -/
theorem elements_eraseIdx {n c : Node} {i : Nat} (hc : n.children[i]? = some c) :
    (n.withChildren (n.children.eraseIdx i)).elements + c.elements = n.elements := by
  obtain ⟨hi, rfl⟩ := List.getElem?_eq_some_iff.mp hc
  have hperm := (List.getElem_cons_eraseIdx_perm hi).map elements
  rw [elements_withChildren, Multiset.cons_add, n.elements_eq, ← hperm.sum_eq, List.map_cons,
    List.sum_cons, add_comm n.children[i].elements]

/-- What a change of one child puts in or takes out, it puts into or takes out of the
children together. -/
theorem sum_elements_modify {cs : List Node} {i : Nat} {c m : Node} {f g : Node → Node}
    (hc : cs[i]? = some c) (hg : (g c).elements + m.elements = c.elements + (f m).elements) :
    ((cs.modify i g).map elements).sum + m.elements
      = (cs.map elements).sum + (f m).elements := by
  induction cs generalizing i with
  | nil => cases hc
  | cons n ns ih =>
    cases i with
    | zero =>
      obtain rfl : n = c := by simpa using hc
      rw [List.modify_zero_cons, List.map_cons, List.sum_cons, List.map_cons, List.sum_cons,
        add_right_comm, hg, add_right_comm]
    | succ i =>
      rw [List.modify_succ_cons, List.map_cons, List.sum_cons, List.map_cons, List.sum_cons,
        add_assoc, ih hc, add_assoc]

/-- A change at a path changes the account by what it changes at the node there. -/
theorem elements_modify {p : Path} {n m : Node} (f : Node → Node) (hm : n.get? p = some m) :
    (n.modify f p).elements + m.elements = n.elements + (f m).elements := by
  induction p generalizing n with
  | nil =>
    obtain rfl : n = m := by simpa using hm
    exact add_comm _ _
  | cons i p ih =>
    obtain ⟨e, cs⟩ := n
    rw [get?_cons, children_mk, Option.bind_eq_bind, Option.bind_eq_some_iff] at hm
    obtain ⟨c, hc, hm⟩ := hm
    rw [modify, elements_withChildren, element_mk, children_mk, elements_mk, Multiset.cons_add,
      Multiset.cons_add, sum_elements_modify hc (ih hm)]

end Node

namespace Tree

/-- The elements of a tree, as often as they occur. -/
def elements (t : Tree) : Multiset Element := ↑(t.depthFirst.map fun v => v.2.element)

/-- The elements of a tree are those of its root, and the empty tree has none. -/
theorem elements_eq (t : Tree) : t.elements = t.root.elim 0 Node.elements := by
  obtain ⟨root⟩ := t
  rw [elements, depthFirst_eq]
  rcases root with _ | n
  · rfl
  · rfl

@[simp] theorem elements_empty : empty.elements = 0 := elements_eq empty

theorem card_elements (t : Tree) : t.elements.card = t.nodeCount := by
  rw [elements, Multiset.coe_card, List.length_map, length_depthFirst]

/-- A change at a path changes the account by what it changes at the node there. -/
theorem elements_modify {t : Tree} {p : Path} {m : Node} (f : Node → Node)
    (hm : t.get? p = some m) : (t.modify p f).elements + m.elements = t.elements + (f m).elements := by
  obtain ⟨root⟩ := t
  rcases root with _ | n
  · exact absurd hm (by simp [get?])
  · rw [elements_eq, elements_eq]
    exact Node.elements_modify f hm

end Tree

end LoadTest
