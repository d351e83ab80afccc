/-
Refused edits, and why they are refused.

An edit is given a path, and nothing else decides whether it can start: there is
a node at the path, or the path leads astray (`Tree.Astray`). It leads astray at
one place, the first node on the way that has too few children, so a missing
ancestor, a step past a leaf and the empty tree are the same case. Only at a node
that is there does the position of an insertion matter, or whether a fragment is
empty; so of two faults the missing node is the one that is told.

Each statement gives the answer together with the tree that is left. A refusal
is thereby exact, since it is told if and only if there is reason for it, and it
is atomic, since the tree that is left is the one that was given.
-/
import LoadTest.Proofs.Tree.EditRun

set_option autoImplicit false

namespace LoadTest

/-! ## Paths that lead astray -/

/-- The paths that lead to no node of a tree. -/
inductive Tree.Astray (t : Tree) : Path → Prop where
  /-- There is nothing to lead to. -/
  | nothing (p : Path) (h : t.root = none) : Astray t p
  /-- The node at `q` has no child `j`, whatever would have come below it. -/
  | missing (q : Path) (j : Nat) (r : Path) {m : Node} (hm : t.get? q = some m)
      (hj : m.children.length ≤ j) : Astray t (q ++ j :: r)

/-- A path leads to no node exactly if some node on the way has too few children. -/
theorem Node.get?_eq_none_iff (n : Node) (p : Path) :
    n.get? p = none ↔
      ∃ q j r m, p = q ++ j :: r ∧ n.get? q = some m ∧ m.children.length ≤ j := by
  constructor
  · intro h
    induction p generalizing n with
    | nil => cases h
    | cons i p ih =>
      rw [get?_cons] at h
      rcases hc : n.children[i]? with _ | c
      · exact ⟨[], i, p, n, rfl, rfl, List.getElem?_eq_none_iff.mp hc⟩
      · -- the step to child `i` can be made, so the path goes wrong below it
        rw [hc] at h
        obtain ⟨q, j, r, m, rfl, hm, hj⟩ := ih c h
        refine ⟨i :: q, j, r, m, rfl, ?_, hj⟩
        rw [get?_cons, hc]
        exact hm
  · rintro ⟨q, j, r, m, rfl, hm, hj⟩
    rw [get?_append, hm]
    show m.children[j]? >>= get? r = none
    rw [List.getElem?_eq_none hj]
    rfl

namespace Tree

/-- Nothing is found exactly under the paths that go astray. -/
theorem get?_eq_none_iff (t : Tree) (p : Path) : t.get? p = none ↔ t.Astray p := by
  obtain ⟨root⟩ := t
  rcases root with _ | n
  · exact iff_of_true rfl (.nothing p rfl)
  · refine (n.get?_eq_none_iff p).trans ?_
    constructor
    · rintro ⟨q, j, r, m, rfl, hm, hj⟩
      exact .missing q j r hm hj
    · rintro (⟨_, h⟩ | ⟨q, j, r, hm, hj⟩)
      · cases h
      · exact ⟨q, j, r, _, rfl, hm, hj⟩

/-- A child is found from the node above it. -/
theorem get?_child (t : Tree) (p : Path) (i : Nat) :
    t.get? (p.child i) = t.get? p >>= fun m => m.children[i]? := by
  rw [Path.child, get?_append]
  rcases t.get? p with _ | m
  · rfl
  · show m.children[i]? >>= Node.get? [] = m.children[i]?
    rcases m.children[i]? with _ | c <;> rfl

/-! ## Insertions -/

/-- Why an insertion at a path and a position is refused. -/
inductive InsertRefused (t : Tree) (p : Path) (i : Nat) : EditError → Prop where
  | noSuchNode (h : t.get? p = none) : InsertRefused t p i (.noSuchNode p)
  | indexOutOfBounds {m : Node} (hm : t.get? p = some m) (hi : m.children.length < i) :
      InsertRefused t p i (.indexOutOfBounds i m.children.length)

/-- An insertion is refused where nothing stands or behind the last place among the
children, and then the tree is as it was. -/
theorem insert_eq_error_iff {t t' : Tree} {p : Path} {i : Nat} {n : Node} {err : EditError} :
    t.insert p i n = (.error err, t') ↔ t.InsertRefused p i err ∧ t' = t := by
  constructor
  · intro h
    refine ⟨?_, eq_of_insert_error h⟩
    rw [insert] at h
    rcases hm : t.get? p with _ | m
    · simp only [hm, Prod.mk.injEq, Except.error.injEq] at h
      rw [← h.1]
      exact .noSuchNode hm
    · by_cases hi : i ≤ m.children.length
      · simp [hm, Node.insertChild, hi] at h
      · simp only [hm, Node.insertChild, if_neg hi, Prod.mk.injEq, Except.error.injEq] at h
        rw [← h.1]
        exact .indexOutOfBounds hm (Nat.lt_of_not_le hi)
  · rintro ⟨hm | ⟨hm, hi⟩, rfl⟩
    · simp only [insert, hm]
    · simp only [insert, hm, Node.insertChild, if_neg (Nat.not_le_of_lt hi)]

/-! ## Attachments -/

/-- Attaching is refused only under a path at which nothing stands, and then the tree is
as it was. -/
theorem attach_eq_error_iff {t t' g : Tree} {p : Path} {err : EditError} :
    t.attach p g = (.error err, t') ↔ t.get? p = none ∧ err = .noSuchNode p ∧ t' = t := by
  rw [attach]
  rcases t.get? p with _ | m
  · simp [eq_comm]
  · rcases g.root with _ | c <;> simp

/-- An empty fragment has no root that could be attached. -/
theorem attach_eq_none_iff {t t' g : Tree} {p : Path} :
    t.attach p g = (.ok none, t') ↔ (t.get? p).isSome = true ∧ g = empty ∧ t' = t := by
  obtain ⟨root⟩ := g
  rw [attach]
  rcases t.get? p with _ | m
  · simp
  · rcases root with _ | c <;> simp [empty, eq_comm]

/-- A tree that is not empty is attached under every path at which something stands. -/
theorem attach_eq_some_iff {t g : Tree} {p : Path} :
    (∃ a t', t.attach p g = (.ok (some a), t')) ↔ (t.get? p).isSome = true ∧ g ≠ empty := by
  obtain ⟨root⟩ := g
  rw [attach]
  rcases t.get? p with _ | m
  · simp
  · rcases root with _ | c <;> simp [empty]

/-! ## Removals -/

/-- A removal answers with what a look-up finds. -/
theorem remove_fst (t : Tree) (p : Path) : (t.remove p).1 = t.get? p := by
  rcases p.root_or_child with rfl | ⟨q, i, rfl⟩
  · exact (get?_root t).symm
  · rw [get?_child, remove, Path.parent?_child, Path.last?_child]
    dsimp only
    rcases t.get? q with _ | m
    · rfl
    · rcases hc : m.children[i]? with _ | c <;> simp [Node.removeChild, hc]

/-- Removing does nothing exactly under a path at which nothing stands. -/
theorem remove_eq_none_iff {t t' : Tree} {p : Path} :
    t.remove p = (none, t') ↔ t.get? p = none ∧ t' = t := by
  have hleft : t.get? p = none → (t.remove p).2 = t := by
    intro h
    rcases p.root_or_child with rfl | ⟨q, i, rfl⟩
    · -- at the root there is no node only if there is none at all
      have hroot : t.root = none := (get?_root t).symm.trans h
      exact congrArg Tree.mk hroot.symm
    · exact eq_of_remove_child_none (Prod.ext ((remove_fst t _).trans h) rfl)
  rw [Prod.ext_iff, remove_fst]
  constructor
  · rintro ⟨h, rfl⟩
    exact ⟨h, hleft h⟩
  · rintro ⟨h, rfl⟩
    exact ⟨h, hleft h⟩

/-! ## Exact and atomic -/

/-- An edit is refused if and only if there is reason for it, it says which, and
it leaves the tree it was given. An insertion is refused at a path that leads
astray, and otherwise for a position beyond the end of the children; an
attachment is refused at a path that leads astray, even if there is nothing to
attach, and with an empty fragment it does nothing; a removal finds nothing at a
path that leads astray. In all other cases the edit succeeds. -/
theorem refused_edits_are_atomic (t : Tree) (p : Path) (i : Nat) (n : Node) (g : Tree) :
    (t.get? p = none ↔ t.Astray p)
    ∧ (∀ err t', t.insert p i n = (.error err, t') ↔ t.InsertRefused p i err ∧ t' = t)
    ∧ ((∃ a t', t.insert p i n = (.ok a, t')) ↔ ∃ m, t.get? p = some m ∧ i ≤ m.children.length)
    ∧ (∀ err t', t.attach p g = (.error err, t')
      ↔ t.get? p = none ∧ err = .noSuchNode p ∧ t' = t)
    ∧ (∀ t', t.attach p g = (.ok none, t') ↔ (t.get? p).isSome = true ∧ g = empty ∧ t' = t)
    ∧ ((∃ a t', t.attach p g = (.ok (some a), t')) ↔ (t.get? p).isSome = true ∧ g ≠ empty)
    ∧ (∀ t', t.remove p = (none, t') ↔ t.get? p = none ∧ t' = t) := by
  refine ⟨t.get?_eq_none_iff p, ?_, ?_, ?_, ?_, attach_eq_some_iff, ?_⟩
  · exact fun _ _ => insert_eq_error_iff
  · constructor
    · rintro ⟨a, t', h⟩
      obtain ⟨m, hm, hi, -⟩ := insert_eq_ok_iff.mp h
      exact ⟨m, hm, hi⟩
    · rintro ⟨m, hm, hi⟩
      exact ⟨_, _, insert_eq_ok_iff.mpr ⟨m, hm, hi, rfl, rfl⟩⟩
  · exact fun _ _ => attach_eq_error_iff
  · exact fun _ => attach_eq_none_iff
  · exact fun _ => remove_eq_none_iff

end Tree

end LoadTest
