/-
The traversal with a stack visits the nodes in the order of their paths.

`Traversal.run` is a loop: it takes the topmost pending subtree and puts the
children of its root in its place. Here the same list is written down by
recursion over the tree (`Node.preorder`), and every statement about the
traversal is a statement about that list. The invariant that connects the two is
that a stack stands for the preorders of its subtrees one after the other
(`Traversal.run_eq`); it holds of any stack, not only of those that a tree
leads to.

The loop itself is accounted for too: the visit number `k` is the top of the
stack after `k` rounds, and the stack is empty after as many rounds as there are
nodes, and not earlier.
-/
import LoadTest.Proofs.Tree.Lookup
import LoadTest.Tree.Traversal
import Mathlib.Data.List.Lex
import Mathlib.Logic.Function.Iterate

set_option autoImplicit false

namespace LoadTest

/-! ## Preorder by recursion -/

/-- A visit as it is seen from the node that `p` leads down from. -/
def Traversal.under (p : Path) (v : Path × Node) : Path × Node := (p ++ v.1, v.2)

namespace Node

open Traversal (under)

mutual
/-- A node and everything below it, with the paths that lead there. -/
def preorder : Node → List (Path × Node)
  | mk e cs => ([], mk e cs) :: forestPreorder 0 cs

/-- The same for children that are numbered from `i`. -/
def forestPreorder : Nat → List Node → List (Path × Node)
  | _, [] => []
  | i, n :: ns => (preorder n).map (under [i]) ++ forestPreorder (i + 1) ns
end

theorem length_preorder (n : Node) : n.preorder.length = n.nodeCount := by
  induction n with
  | mk e cs ih =>
    have hforest : ∀ i, (forestPreorder i cs).length = forestCount cs := by
      clear e
      induction cs with
      | nil => exact fun _ => rfl
      | cons c cs ihcs =>
        intro i
        have hc := ih c List.mem_cons_self
        have hcs := ihcs (fun c' hc' => ih c' (List.mem_cons_of_mem _ hc')) (i + 1)
        rw [forestPreorder, List.length_append, List.length_map, hc, hcs, forestCount]
    rw [preorder, List.length_cons, hforest, nodeCount]

/-- What is read off the nodes alone is read child after child. -/
theorem map_preorder_mk {β : Type} (f : Node → β) (e : Element) (cs : List Node) :
    (mk e cs).preorder.map (fun v => f v.2)
      = f (mk e cs) :: cs.flatMap fun c => c.preorder.map fun v => f v.2 := by
  have hforest : ∀ i, (forestPreorder i cs).map (fun v => f v.2)
      = cs.flatMap fun c => c.preorder.map fun v => f v.2 := by
    induction cs with
    | nil => exact fun _ => rfl
    | cons c cs ih =>
      intro i
      rw [forestPreorder, List.map_append, List.map_map, ih, List.flatMap_cons]
      -- the index in front of the paths does not change what is visited
      rfl
  rw [preorder, List.map_cons, hforest]

/-- A visit of children numbered from `i` is a visit in one of them. -/
theorem mem_forestPreorder {cs : List Node} {i : Nat} {v : Path × Node} :
    v ∈ forestPreorder i cs ↔
      ∃ j c, cs[j]? = some c ∧ ∃ u ∈ c.preorder, v = under [i + j] u := by
  induction cs generalizing i with
  | nil => simp [forestPreorder]
  | cons c cs ih =>
    rw [forestPreorder, List.mem_append, List.mem_map, ih]
    constructor
    · rintro (⟨u, hu, rfl⟩ | ⟨j, d, hd, u, hu, rfl⟩)
      · exact ⟨0, c, rfl, u, hu, rfl⟩
      · exact ⟨j + 1, d, hd, u, hu, by rw [Nat.add_assoc, Nat.add_comm 1 j]⟩
    · rintro ⟨j, d, hd, u, hu, rfl⟩
      cases j with
      | zero =>
        have hcd : c = d := by simpa using hd
        exact .inl ⟨u, hcd ▸ hu, rfl⟩
      | succ j => exact .inr ⟨j, d, hd, u, hu, by rw [Nat.add_assoc, Nat.add_comm 1 j]⟩

/-- The visits are the nodes that paths lead to. -/
theorem mem_preorder {n m : Node} {p : Path} : (p, m) ∈ n.preorder ↔ n.get? p = some m := by
  induction n generalizing p with
  | mk e cs ih =>
    rw [preorder, List.mem_cons, mem_forestPreorder]
    rcases p with _ | ⟨j, p⟩
    · -- no visit below the node has the empty path
      have hbelow : ¬ ∃ j c, cs[j]? = some c ∧ ∃ u ∈ c.preorder, ([], m) = under [0 + j] u := by
        rintro ⟨j, c, -, u, -, hu⟩
        cases hu
      rw [or_iff_left hbelow, get?_root, Prod.mk.injEq, Option.some.injEq]
      exact ⟨fun h => h.2.symm, fun h => ⟨rfl, h.symm⟩⟩
    · rw [get?_cons, children_mk, Option.bind_eq_bind, Option.bind_eq_some_iff]
      constructor
      · rintro (h | ⟨k, c, hc, ⟨q, m'⟩, hq, hu⟩)
        · cases h
        · obtain ⟨hjp, rfl⟩ := Prod.mk.inj hu
          obtain ⟨rfl, rfl⟩ := List.cons.inj hjp
          exact ⟨c, by rw [Nat.zero_add]; exact hc, (ih c (List.mem_of_getElem? hc)).mp hq⟩
      · rintro ⟨c, hc, hm⟩
        refine .inr ⟨j, c, hc, (p, m), (ih c (List.mem_of_getElem? hc)).mpr hm, ?_⟩
        rw [Nat.zero_add]
        rfl

/-- Paths come in lexicographic order: a node before its children, and a child
with everything below it before the next. -/
theorem pairwise_preorder (n : Node) : (n.preorder.map Prod.fst).Pairwise (· < ·) := by
  induction n with
  | mk e cs ih =>
    have hforest : ∀ i, ((forestPreorder i cs).map Prod.fst).Pairwise (· < ·) := by
      clear e
      induction cs with
      | nil => exact fun _ => .nil
      | cons c cs ihcs =>
        intro i
        have hc := ih c List.mem_cons_self
        have hcs := ihcs (fun c' hc' => ih c' (List.mem_cons_of_mem _ hc')) (i + 1)
        rw [forestPreorder, List.map_append, List.pairwise_append]
        refine ⟨?_, hcs, ?_⟩
        · -- within the first child the common index in front does not count
          rw [List.map_map, List.pairwise_map]
          rw [List.pairwise_map] at hc
          refine hc.imp ?_
          intro u v huv
          exact List.Lex.cons huv
        · -- behind the first child the index in front is larger
          intro p hp q hq
          obtain ⟨u, hu, rfl⟩ := List.mem_map.mp hp
          obtain ⟨u', -, rfl⟩ := List.mem_map.mp hu
          obtain ⟨v, hv, rfl⟩ := List.mem_map.mp hq
          obtain ⟨j, d, -, v', -, rfl⟩ := mem_forestPreorder.mp hv
          have hij : i < i + 1 + j := by omega
          exact List.Lex.rel hij
    rw [preorder, List.map_cons, List.pairwise_cons]
    refine ⟨?_, hforest 0⟩
    intro p hp
    obtain ⟨v, hv, rfl⟩ := List.mem_map.mp hp
    obtain ⟨j, c, -, u, -, rfl⟩ := mem_forestPreorder.mp hv
    exact List.Lex.nil

end Node

/-! ## The stack -/

namespace Traversal

theorem flatMap_childrenAt (p : Path) (i : Nat) (cs : List Node) :
    (cs.mapIdx fun j c => (Path.child p (i + j), c)).flatMap
        (fun v => v.2.preorder.map (under v.1))
      = (Node.forestPreorder i cs).map (under p) := by
  induction cs generalizing i with
  | nil => rfl
  | cons c cs ih =>
    have hunder : under (Path.child p i) = under p ∘ under [i] := by
      funext v
      rw [Function.comp_apply, under, under, under, Path.child, List.append_assoc]
    have hnext : (fun j c => (Path.child p (i + (j + 1)), c))
        = fun j (c : Node) => (Path.child p (i + 1 + j), c) := by
      funext j c
      rw [Nat.add_assoc, Nat.add_comm 1 j]
    rw [List.mapIdx_cons, List.flatMap_cons, hnext, ih, Nat.add_zero, Node.forestPreorder,
      List.map_append, List.map_map, hunder]

/-- A stack stands for the preorders of its subtrees, one after the other. -/
theorem run_eq (st : Stack) : run st = st.flatMap fun v => v.2.preorder.map (under v.1) := by
  induction st using run.induct with
  | case1 => rw [run_nil, List.flatMap_nil]
  | case2 p n st ih =>
    obtain ⟨e, cs⟩ := n
    have hself : under p ([], Node.mk e cs) = (p, .mk e cs) := by
      rw [under, List.append_nil]
    have hbelow := flatMap_childrenAt p 0 cs
    simp only [Nat.zero_add] at hbelow
    rw [run_cons, ih, List.flatMap_append, List.flatMap_cons, Node.preorder, List.map_cons, hself,
      List.cons_append, childrenAt, Node.children_mk, hbelow]

/-- One round: the topmost subtree makes room for its children. -/
def advance : Stack → Stack
  | [] => []
  | (p, n) :: st => childrenAt p n ++ st

/-- The stack before the first round. -/
def start (t : Tree) : Stack := t.root.toList.map fun n => (Path.root, n)

/-- Each round takes one node off. -/
theorem pending_advance (st : Stack) : pending (advance st) = pending st - 1 := by
  rcases st with _ | ⟨⟨p, ⟨e, cs⟩⟩, st⟩
  · rfl
  · rw [advance, pending, pending, List.map_append, map_snd_childrenAt, List.map_cons,
      Node.forestCount_append, Node.forestCount, Node.nodeCount, Node.children_mk]
    omega

/-- Nothing is left to be visited exactly if the stack is empty. -/
theorem pending_eq_zero_iff (st : Stack) : pending st = 0 ↔ st = [] := by
  rcases st with _ | ⟨⟨p, n⟩, st⟩
  · simp [pending, Node.forestCount]
  · have hn := n.nodeCount_pos
    have htop : pending ((p, n) :: st) = n.nodeCount + pending st := rfl
    have hpos : pending ((p, n) :: st) ≠ 0 := by omega
    exact iff_of_false hpos (List.cons_ne_nil _ _)

/-- Each step visits one of the nodes that are left, as long as there are any. -/
theorem pending_iterate (k : Nat) (st : Stack) : pending (advance^[k] st) = pending st - k := by
  induction k with
  | zero => rfl
  | succ k ih =>
    rw [Function.iterate_succ_apply', pending_advance, ih]
    omega

/-- After `k` rounds all but the first `k` visits are still to come. -/
theorem run_iterate (st : Stack) (k : Nat) : run (advance^[k] st) = (run st).drop k := by
  induction k generalizing st with
  | zero => rfl
  | succ k ih =>
    rw [Function.iterate_succ_apply, ih]
    rcases st with _ | ⟨⟨p, n⟩, st⟩
    · rw [advance, run_nil, List.drop_nil, List.drop_nil]
    · rw [run_cons, List.drop_succ_cons, advance]

/-- The next visit is the top of the stack. -/
theorem head?_run (st : Stack) : (run st).head? = st.head? := by
  rcases st with _ | ⟨⟨p, n⟩, st⟩
  · rw [run_nil]
  · rw [run_cons, List.head?_cons, List.head?_cons]

/-- What is visited after `k` rounds is the top of the stack then. -/
theorem getElem?_run (st : Stack) (k : Nat) : (run st)[k]? = (advance^[k] st).head? := by
  rw [← List.head?_drop, ← run_iterate, head?_run]

end Traversal

/-! ## The traversal of a tree -/

namespace Tree

/-- A traversal lists the nodes of a tree in preorder. -/
theorem depthFirst_eq (t : Tree) : t.depthFirst = t.root.elim [] Node.preorder := by
  obtain ⟨root⟩ := t
  rcases root with _ | n
  · exact Traversal.run_nil
  · have hroot : Traversal.under Path.root = id := rfl
    rw [depthFirst, Option.toList_some, List.map_singleton, Traversal.run_eq,
      List.flatMap_singleton, hroot, List.map_id]
    rfl

theorem length_depthFirst (t : Tree) : t.depthFirst.length = t.nodeCount := by
  rw [depthFirst_eq]
  obtain ⟨root⟩ := t
  rcases root with _ | n
  · rfl
  · exact n.length_preorder

/-- A traversal lists each node under the path that leads to it, and nothing else. -/
theorem mem_depthFirst {t : Tree} {p : Path} {n : Node} :
    (p, n) ∈ t.depthFirst ↔ t.get? p = some n := by
  obtain ⟨root⟩ := t
  rcases root with _ | m
  · rw [depthFirst_eq]
    exact iff_of_false List.not_mem_nil (by rintro ⟨⟩)
  · rw [depthFirst_eq]
    exact Node.mem_preorder

/-- The visits come in the lexicographic order of their paths. -/
theorem pairwise_depthFirst (t : Tree) : (t.depthFirst.map Prod.fst).Pairwise (· < ·) := by
  rw [depthFirst_eq]
  obtain ⟨root⟩ := t
  rcases root with _ | n
  · exact .nil
  · exact n.pairwise_preorder

/-- The paths found are those of the nodes that pass the test. -/
theorem mem_findPaths {t : Tree} {test : Node → Bool} {p : Path} :
    p ∈ t.findPaths test ↔ ∃ n, t.get? p = some n ∧ test n = true := by
  rw [findPaths, List.mem_map]
  constructor
  · rintro ⟨⟨q, n⟩, hv, rfl⟩
    obtain ⟨hq, hn⟩ := List.mem_filter.mp hv
    exact ⟨n, mem_depthFirst.mp hq, hn⟩
  · rintro ⟨n, hp, hn⟩
    exact ⟨(p, n), List.mem_filter.mpr ⟨mem_depthFirst.mpr hp, hn⟩, rfl⟩

end Tree

/-- Comparing paths is comparing them step by step. -/
theorem Path.cmp_eq_lt_iff (p q : Path) : p.cmp q = .lt ↔ p < q := by
  rw [Path.cmp]
  by_cases hlt : p < q
  · simp [hlt]
  · by_cases heq : p = q
    · simp [heq]
    · simp [hlt, heq]

namespace Tree

/-- The traversal is over after as many rounds as there are nodes, and its visits
are the tops of the stack on the way. It visits the nodes that can be looked up,
each once and with its own path, in the lexicographic order of the paths. A
search yields those paths whose nodes pass the test, in the same order. -/
theorem depthFirst_enumerates (t : Tree) :
    (∀ k, Traversal.advance^[k] (Traversal.start t) = [] ↔ t.nodeCount ≤ k)
    ∧ (∀ k, t.depthFirst[k]? = (Traversal.advance^[k] (Traversal.start t)).head?)
    ∧ t.depthFirst.length = t.nodeCount
    ∧ (t.depthFirst.map Prod.fst).Pairwise (fun p q => p.cmp q = .lt)
    ∧ (∀ p n, (p, n) ∈ t.depthFirst ↔ t.get? p = some n)
    ∧ (∀ test, (t.findPaths test).Sublist (t.depthFirst.map Prod.fst)
      ∧ ∀ p, p ∈ t.findPaths test ↔ ∃ n, t.get? p = some n ∧ test n = true)
    ∧ ∀ kind, (t.findKind kind).Sublist (t.depthFirst.map Prod.fst)
      ∧ ∀ p, p ∈ t.findKind kind ↔ ∃ n, t.get? p = some n ∧ n.element.kind = kind := by
  have hpending : Traversal.pending (Traversal.start t) = t.nodeCount := by
    obtain ⟨root⟩ := t
    rcases root with _ | n
    · rfl
    · rfl
  have hsub : ∀ test, (t.findPaths test).Sublist (t.depthFirst.map Prod.fst) := by
    intro test
    exact List.filter_sublist.map Prod.fst
  refine ⟨?_, ?_, ?_, ?_, ?_, ?_, ?_⟩
  · intro k
    rw [← Traversal.pending_eq_zero_iff, Traversal.pending_iterate, hpending]
    omega
  · intro k
    exact Traversal.getElem?_run _ k
  · rw [depthFirst_eq]
    obtain ⟨root⟩ := t
    rcases root with _ | n
    · rfl
    · exact n.length_preorder
  · simp only [Path.cmp_eq_lt_iff]
    rw [depthFirst_eq]
    obtain ⟨root⟩ := t
    rcases root with _ | n
    · exact .nil
    · exact n.pairwise_preorder
  · exact fun _ _ => mem_depthFirst
  · exact fun test => ⟨hsub test, fun _ => mem_findPaths⟩
  · intro kind
    refine ⟨hsub _, ?_⟩
    intro p
    rw [findKind, mem_findPaths]
    simp only [beq_iff_eq]

end Tree

end LoadTest
