/-
Runs of edits, and what they do to the account of elements.

A run is any list of edits, successful or not. Its ledger holds what it has put
into the tree and what it has taken out; an edit that is refused leaves no
entry. There are only four things that one edit can do (`Edit.step_cases`), and
whatever holds of a run follows from these four by induction.

No edit loses an element or doubles one: what is in the tree in the end and what
was taken out is together what was in the tree at the beginning and what was put
in (`Edit.run_conserves_elements`). The tree stays without nodes or with a
single root, and it can be emptied in one way only, which is final.
-/
import LoadTest.Proofs.Tree.Edit
import LoadTest.Proofs.Tree.Elements

set_option autoImplicit false

namespace LoadTest

/-! ## Edits and ledgers -/

/-- An edit of a tree. -/
inductive Edit where
  | attach (parent : Path) (fragment : Tree)
  | insert (parent : Path) (i : Nat) (n : Node)
  | remove (p : Path)

/-- What edits have moved. -/
structure Ledger where
  /-- The nodes that were put into the tree. -/
  given : List Node
  /-- The nodes that were taken out of it. -/
  taken : List Node

namespace Ledger

/-- Nothing was moved. -/
def blank : Ledger := ⟨[], []⟩

/-- What was moved by one run and then by another. -/
def append (a b : Ledger) : Ledger := ⟨a.given ++ b.given, a.taken ++ b.taken⟩

end Ledger

namespace Edit

/-- The tree after an edit, and what the edit has moved. An edit that is refused
has moved nothing, and neither has one that attaches an empty fragment. -/
def step (t : Tree) : Edit → Ledger × Tree
  | attach parent fragment =>
    match t.attach parent fragment with
    | (.ok _, t') => (⟨fragment.root.toList, []⟩, t')
    | (.error _, t') => (.blank, t')
  | insert parent i n =>
    match t.insert parent i n with
    | (.ok _, t') => (⟨[n], []⟩, t')
    | (.error _, t') => (.blank, t')
  | remove p => (⟨[], (t.remove p).1.toList⟩, (t.remove p).2)

/-- The tree after edits one after another, and what they have moved. -/
def run (t : Tree) : List Edit → Ledger × Tree
  | [] => (.blank, t)
  | e :: es =>
    let first := e.step t
    let rest := run first.2 es
    (first.1.append rest.1, rest.2)

end Edit

/-! ## What one edit can do -/

namespace Tree

/-- An insertion that is refused leaves the tree as it is. -/
theorem eq_of_insert_error {t t' : Tree} {p : Path} {i : Nat} {n : Node} {err : EditError}
    (h : t.insert p i n = (.error err, t')) : t' = t := by
  rw [insert] at h
  rcases hm : t.get? p with _ | m
  · simp only [hm] at h
    exact (Prod.mk.inj h).2.symm
  · by_cases hi : i ≤ m.children.length
    · simp [hm, Node.insertChild, hi] at h
    · simp only [hm, Node.insertChild, if_neg hi] at h
      exact (Prod.mk.inj h).2.symm

/-- A removal that finds nothing leaves the tree as it is. -/
theorem eq_of_remove_child_none {t t' : Tree} {p : Path} {i : Nat}
    (h : t.remove (p.child i) = (none, t')) : t' = t := by
  rw [remove, Path.parent?_child, Path.last?_child] at h
  dsimp only at h
  rcases hm : t.get? p with _ | m
  · simp only [hm] at h
    exact (Prod.mk.inj h).2.symm
  · rcases hc : m.children[i]? with _ | c
    · simp only [hm, Node.removeChild, hc] at h
      exact (Prod.mk.inj h).2.symm
    · simp [hm, Node.removeChild, hc] at h

end Tree

namespace Edit

/-- An edit puts a node among the children of a node, takes one out from there,
takes the root, or leaves the tree as it is. -/
theorem step_cases (t : Tree) (e : Edit) :
    (∃ p m i n, t.get? p = some m ∧ i ≤ m.children.length
      ∧ e ≠ .remove Path.root
      ∧ e.step t = (⟨[n], []⟩, t.modify p fun _ => m.withChildren (m.children.insertIdx i n)))
    ∨ (∃ p m i c, t.get? p = some m ∧ m.children[i]? = some c
      ∧ e ≠ .remove Path.root
      ∧ e.step t = (⟨[], [c]⟩, t.modify p fun _ => m.withChildren (m.children.eraseIdx i)))
    ∨ (e = .remove Path.root ∧ e.step t = (⟨[], t.root.toList⟩, .empty))
    ∨ (e ≠ .remove Path.root ∧ e.step t = (.blank, t)) := by
  have hput : ∀ p i n a t', t.insert p i n = (.ok a, t') → ∃ m, t.get? p = some m
      ∧ i ≤ m.children.length
      ∧ t' = t.modify p fun _ => m.withChildren (m.children.insertIdx i n) := by
    intro p i n a t' h
    obtain ⟨m, hm, hi, -, ht'⟩ := Tree.insert_eq_ok_iff.mp h
    exact ⟨m, hm, hi, ht'⟩
  cases e with
  | attach p fragment =>
    rcases h : t.attach p fragment with ⟨err | a, t'⟩
    · -- only a missing node is an error, and then nothing has happened
      refine .inr (.inr (.inr ⟨by simp, ?_⟩))
      rcases hm : t.get? p with _ | m
      · simp [step, Tree.attach, hm]
      · rcases hf : fragment.root with _ | n <;> simp [Tree.attach, hm, hf] at h
    · obtain ⟨root⟩ := fragment
      rcases root with _ | n
      · refine .inr (.inr (.inr ⟨by simp, ?_⟩))
        rcases hm : t.get? p with _ | m
        · simp [Tree.attach, hm] at h
        · simp [step, Tree.attach, hm, Ledger.blank]
      · obtain ⟨m, hm, -, hins⟩ := Tree.insert_of_attach h
        obtain ⟨m', hm', hi, rfl⟩ := hput _ _ _ _ _ hins
        refine .inl ⟨p, m', _, n, hm', hi, by simp, ?_⟩
        simp only [step, h, Option.toList_some]
  | insert p i n =>
    rcases h : t.insert p i n with ⟨err | a, t'⟩
    · refine .inr (.inr (.inr ⟨by simp, ?_⟩))
      simp only [step, h, Tree.eq_of_insert_error h]
    · obtain ⟨m, hm, hi, rfl⟩ := hput _ _ _ _ _ h
      refine .inl ⟨p, m, i, n, hm, hi, by simp, ?_⟩
      simp only [step, h]
  | remove p =>
    rcases p.root_or_child with rfl | ⟨q, i, rfl⟩
    · exact .inr (.inr (.inl ⟨rfl, rfl⟩))
    · have hroot : Edit.remove (Path.child q i) ≠ .remove Path.root := by
        simp [Path.child, Path.root]
      rcases h : t.remove (Path.child q i) with ⟨_ | c, t'⟩
      · refine .inr (.inr (.inr ⟨hroot, ?_⟩))
        obtain rfl := Tree.eq_of_remove_child_none h
        simp only [step, h, Option.toList_none, Ledger.blank]
      · obtain ⟨m, hm, hc, rfl⟩ := Tree.remove_child_eq_some_iff.mp h
        refine .inr (.inl ⟨q, m, i, c, hm, hc, hroot, ?_⟩)
        simp only [step, h, Option.toList_some]

/-! ## The account -/

/-- The elements of nodes. -/
def elementsOf (ns : List Node) : Multiset Element := (ns.map Node.elements).sum

theorem elementsOf_append (ms ns : List Node) :
    elementsOf (ms ++ ns) = elementsOf ms + elementsOf ns := by
  rw [elementsOf, List.map_append, List.sum_append]
  rfl

theorem card_elementsOf (ns : List Node) : (elementsOf ns).card = (ns.map Node.nodeCount).sum := by
  induction ns with
  | nil => rfl
  | cons n ns ih =>
    rw [elementsOf, List.map_cons, List.sum_cons, Multiset.card_add, n.card_elements, List.map_cons,
      List.sum_cons, ← ih, elementsOf]

/-- The account of one edit. -/
theorem elements_step (t : Tree) (e : Edit) :
    (e.step t).2.elements + elementsOf (e.step t).1.taken
      = t.elements + elementsOf (e.step t).1.given := by
  have hnone : elementsOf [] = 0 := rfl
  have hone : ∀ n : Node, elementsOf [n] = n.elements := fun n => add_zero _
  rcases e.step_cases t with ⟨p, m, i, n, hm, hi, -, h⟩ | ⟨p, m, i, c, hm, hc, -, h⟩ | ⟨-, h⟩ | ⟨-, h⟩
  · rw [h, hnone, hone, add_zero]
    -- what the tree gains is what the node at `p` gains
    have hbalance := Tree.elements_modify
      (fun _ => m.withChildren (m.children.insertIdx i n)) hm
    rw [m.elements_insertIdx n hi, add_comm m.elements, ← add_assoc] at hbalance
    exact add_right_cancel hbalance
  · rw [h, hnone, hone, add_zero]
    have hbalance := Tree.elements_modify
      (fun _ => m.withChildren (m.children.eraseIdx i)) hm
    rw [← m.elements_eraseIdx hc, add_comm _ c.elements, ← add_assoc] at hbalance
    exact add_right_cancel hbalance
  · rw [h, hnone, add_zero, Tree.elements_empty, zero_add, t.elements_eq]
    rcases t.root with _ | n
    · rfl
    · exact hone n
  · rw [h]
    rfl

/-- An edit empties a tree by taking the root, and puts nothing into an empty one. -/
theorem isEmpty_step (t : Tree) (e : Edit) :
    (e.step t).2.isEmpty = true ↔ t.isEmpty = true ∨ e = .remove Path.root := by
  have hkept : ∀ p f, (t.modify p f).isEmpty = t.isEmpty := fun p f => Option.isNone_map
  rcases e.step_cases t with ⟨p, m, i, n, -, -, he, h⟩ | ⟨p, m, i, c, -, -, he, h⟩ | ⟨he, h⟩ | ⟨he, h⟩
  · rw [h, hkept, or_iff_left he]
  · rw [h, hkept, or_iff_left he]
  · rw [h]
    exact ⟨fun _ => .inr he, fun _ => rfl⟩
  · rw [h, or_iff_left he]

/-- Whatever edits are tried on a tree, in any order, and whichever of them
succeed: the elements in the tree at the end and in the nodes taken out are
together those in the tree at the beginning and in the nodes put in, and so are
the numbers of nodes. What is left has a single root or no node at all, and no
node if and only if there was none at the beginning or the root was taken. -/
theorem run_conserves_elements (t : Tree) (es : List Edit) :
    let moved := (run t es).1
    let t' := (run t es).2
    t'.elements + elementsOf moved.taken = t.elements + elementsOf moved.given
    ∧ t'.nodeCount + (moved.taken.map Node.nodeCount).sum
      = t.nodeCount + (moved.given.map Node.nodeCount).sum
    ∧ (t' = .empty ∨ ∃ n, t' = .ofNode n)
    ∧ (t'.isEmpty = true ↔ t.isEmpty = true ∨ .remove Path.root ∈ es) := by
  intro moved t'
  have helements : t'.elements + elementsOf moved.taken = t.elements + elementsOf moved.given := by
    induction es generalizing t with
    | nil => rfl
    | cons e es ih =>
      have hstep := elements_step t e
      have hrest := ih (e.step t).2
      have htaken : moved.taken = (e.step t).1.taken ++ (run (e.step t).2 es).1.taken := rfl
      have hgiven : moved.given = (e.step t).1.given ++ (run (e.step t).2 es).1.given := rfl
      calc t'.elements + elementsOf moved.taken
          = (run (e.step t).2 es).2.elements + elementsOf (run (e.step t).2 es).1.taken
              + elementsOf (e.step t).1.taken := by
            rw [htaken, elementsOf_append, add_comm (elementsOf (e.step t).1.taken), ← add_assoc]
            rfl
        _ = (e.step t).2.elements + elementsOf (e.step t).1.taken
              + elementsOf (run (e.step t).2 es).1.given := by
            rw [hrest, add_right_comm]
        _ = t.elements + elementsOf moved.given := by
            rw [hstep, hgiven, elementsOf_append, add_assoc]
  refine ⟨helements, ?_, ?_, ?_⟩
  · have hcard := congrArg Multiset.card helements
    rwa [Multiset.card_add, Multiset.card_add, card_elementsOf, card_elementsOf,
      Tree.card_elements, Tree.card_elements] at hcard
  · obtain ⟨root⟩ : Tree := t'
    rcases root with _ | n
    · exact .inl rfl
    · exact .inr ⟨n, rfl⟩
  · clear helements
    induction es generalizing t with
    | nil => exact (or_iff_left List.not_mem_nil).symm
    | cons e es ih =>
      refine (ih (e.step t).2).trans ?_
      rw [isEmpty_step, List.mem_cons, or_assoc, @eq_comm _ e]

end Edit

end LoadTest
