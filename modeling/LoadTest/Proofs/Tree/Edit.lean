/-
Edits are shifts of paths.

An edit that succeeds changes the list of children of one node, the one at the
path `p` it is given. Behind the position of the edit the children move by one
place, and with them everything below them; whatever is not below `p` is where
it was. The statements speak about the elements at paths, so they say at once
what an edit changes and what it leaves alone (`Tree.Inserted`,
`Tree.Removed`), and an insertion and the removal at the same place undo each
other exactly.

All of it is carried by two facts about `Node.modify`: below `p` a look-up goes
on in the changed node, and elsewhere the change cannot be seen.
-/
import LoadTest.Proofs.Tree.Lookup
import Mathlib.Data.List.InsertIdx

set_option autoImplicit false

namespace LoadTest

/-! ## Changing the node at a path -/

namespace Node

/-- Below `p`, and at `p`, a look-up goes on in the changed node. -/
theorem get?_append_modify (f : Node → Node) (p q : Path) (n : Node) :
    get? (p ++ q) (modify f p n) = (get? p n).map f >>= get? q := by
  induction p generalizing n with
  | nil => rfl
  | cons i p ih =>
    rw [List.cons_append, get?_cons, get?_cons, modify, withChildren, children_mk,
      List.getElem?_modify_eq]
    rcases h : n.children[i]? with _ | c
    · rfl
    · exact ih c

/-- A change that keeps the element of its node cannot be seen at a path that
does not lead below `p`. -/
theorem element_get?_modify {f : Node → Node} {p q : Path} {n m : Node}
    (hm : get? p n = some m) (hf : (f m).element = m.element) (hq : ∀ j r, q ≠ p ++ j :: r) :
    (get? q (modify f p n)).map element = (get? q n).map element := by
  induction p generalizing n q with
  | nil =>
    have hnm : n = m := by simpa using hm
    rcases q with _ | ⟨j, r⟩
    · simp [modify, hnm, hf]
    · exact absurd rfl (hq j r)
  | cons i p ih =>
    rcases q with _ | ⟨j, q⟩
    · rfl
    · rw [get?_cons, get?_cons, modify, withChildren, children_mk]
      -- where the paths part the child is another one; until then they go down together
      by_cases hij : i = j
      · subst hij
        rw [List.getElem?_modify_eq]
        rcases hc : n.children[i]? with _ | c
        · rfl
        · rw [get?_cons, hc] at hm
          refine ih hm ?_
          intro k r hqr
          exact hq k r (by rw [hqr, List.cons_append])
      · rw [List.getElem?_modify_ne _ _ hij]

/-- Only what a change does to the node at `p` counts. -/
theorem modify_congr {f g : Node → Node} {p : Path} {n m : Node}
    (hm : get? p n = some m) (hfg : f m = g m) : modify f p n = modify g p n := by
  induction p generalizing n with
  | nil =>
    have hnm : n = m := by simpa using hm
    rw [modify, modify, hnm, hfg]
  | cons i p ih =>
    rw [modify, modify]
    congr 1
    -- only child `i` is changed, and in it only what lies at `p`
    refine List.ext_getElem? ?_
    intro j
    by_cases hij : i = j
    · subst hij
      rw [List.getElem?_modify_eq, List.getElem?_modify_eq]
      rcases hc : n.children[i]? with _ | c
      · rfl
      · rw [get?_cons, hc] at hm
        exact congrArg some (ih hm)
    · rw [List.getElem?_modify_ne _ _ hij, List.getElem?_modify_ne _ _ hij]

/-- Two changes at the same path are one. -/
theorem modify_modify (f g : Node → Node) (p : Path) (n : Node) :
    modify g p (modify f p n) = modify (g ∘ f) p n := by
  induction p generalizing n with
  | nil => rfl
  | cons i p ih =>
    have hcomp : modify g p ∘ modify f p = modify (g ∘ f) p := funext ih
    simp only [modify, withChildren, children_mk, element_mk, List.modify_modify_eq, hcomp]

theorem modify_id (p : Path) (n : Node) : modify id p n = n := by
  induction p generalizing n with
  | nil => rfl
  | cons i p ih =>
    have hid : modify id p = id := funext ih
    rw [modify, hid, List.modify_id]
    exact mk_element_children n

end Node

namespace Tree

/-- Below a node that is there, look-ups go on in the changed node. -/
theorem get?_append_modify {t : Tree} {p : Path} {m : Node} (f : Node → Node)
    (hm : t.get? p = some m) (q : Path) : (t.modify p f).get? (p ++ q) = (f m).get? q := by
  obtain ⟨root⟩ := t
  rcases root with _ | n
  · exact absurd hm (by simp [get?])
  · have hn : n.get? p = some m := hm
    show Node.get? (p ++ q) (Node.modify f p n) = (f m).get? q
    rw [Node.get?_append_modify, hn]
    rfl

theorem get?_modify_self {t : Tree} {p : Path} {m : Node} (f : Node → Node)
    (hm : t.get? p = some m) : (t.modify p f).get? p = some (f m) := by
  have h := get?_append_modify f hm []
  rwa [List.append_nil] at h

/-- A change that keeps the element of its node cannot be seen at a path that
does not lead below `p`. -/
theorem element?_modify {t : Tree} {p q : Path} {m : Node} {f : Node → Node}
    (hm : t.get? p = some m) (hf : (f m).element = m.element) (hq : ∀ j r, q ≠ p ++ j :: r) :
    (t.modify p f).element? q = t.element? q := by
  obtain ⟨root⟩ := t
  rcases root with _ | n
  · rfl
  · exact Node.element_get?_modify hm hf hq

theorem modify_congr {t : Tree} {p : Path} {m : Node} {f g : Node → Node}
    (hm : t.get? p = some m) (hfg : f m = g m) : t.modify p f = t.modify p g := by
  obtain ⟨root⟩ := t
  rcases root with _ | n
  · rfl
  · have hn : n.get? p = some m := hm
    simp only [modify, Option.map_some, Node.modify_congr hn hfg]

/-- Changing a node and then putting back what was there changes nothing. -/
theorem modify_restore {t : Tree} {p : Path} {m : Node} (f : Node → Node)
    (hm : t.get? p = some m) : ((t.modify p f).modify p fun _ => m) = t := by
  obtain ⟨root⟩ := t
  rcases root with _ | n
  · rfl
  · have hn : n.get? p = some m := hm
    have hm' : ((fun _ => m) ∘ f) m = id m := rfl
    have hback : Node.modify (fun _ => m) p (Node.modify f p n) = n := by
      rw [Node.modify_modify, Node.modify_congr hn hm', Node.modify_id]
    simp only [modify, Option.map_some, hback]

/-! ## What a successful edit does -/

/-- An insertion succeeds exactly at a node that is there and in front of one of
its children, or behind the last. It changes the children of that node only. -/
theorem insert_eq_ok_iff {t t' : Tree} {p a : Path} {i : Nat} {n : Node} :
    t.insert p i n = (.ok a, t') ↔
      ∃ m, t.get? p = some m ∧ i ≤ m.children.length ∧ a = p.child i
        ∧ t' = t.modify p fun _ => m.withChildren (m.children.insertIdx i n) := by
  unfold insert
  rcases hm : t.get? p with _ | m
  · simp
  · by_cases hi : i ≤ m.children.length
    · simp [Node.insertChild, hi, eq_comm]
    · simp [Node.insertChild, hi]

/-- Attaching the tree of a node is inserting that node behind the last child. -/
theorem insert_of_attach {t t' : Tree} {p : Path} {n : Node} {a : Option Path}
    (h : t.attach p (ofNode n) = (.ok a, t')) :
    ∃ m, t.get? p = some m ∧ a = some (p.child m.children.length)
      ∧ t.insert p m.children.length n = (.ok (p.child m.children.length), t') := by
  rw [attach] at h
  rcases hm : t.get? p with _ | m
  · rw [hm] at h
    simp at h
  · rw [hm] at h
    obtain ⟨ha, ht'⟩ := Prod.mk.inj h
    have hpush : m.pushChild n
        = m.withChildren (m.children.insertIdx m.children.length n) := by
      rw [Node.pushChild, List.insertIdx_length_self]
    refine ⟨m, rfl, (Except.ok.inj ha).symm, insert_eq_ok_iff.mpr ?_⟩
    refine ⟨m, hm, Nat.le_refl _, rfl, ?_⟩
    rw [← ht', ← hpush]
    exact modify_congr hm rfl

/-- A removal below the root succeeds exactly where there is a node, answers
with it, and changes the children of the node above it only. -/
theorem remove_child_eq_some_iff {t t' : Tree} {p : Path} {i : Nat} {c : Node} :
    t.remove (p.child i) = (some c, t') ↔
      ∃ m, t.get? p = some m ∧ m.children[i]? = some c
        ∧ t' = t.modify p fun _ => m.withChildren (m.children.eraseIdx i) := by
  unfold remove
  rw [Path.parent?_child, Path.last?_child]
  dsimp only
  rcases hm : t.get? p with _ | m
  · simp
  · rcases hc : m.children[i]? with _ | d
    · simp [Node.removeChild, hc]
    · simp [Node.removeChild, hc, eq_comm]

/-! ## Shifted paths -/

/-- `t'` is `t` with the node `n` put in as child `i` of the node at `p`: the
children in front of it stay, `n` stands at its place, the others stand one
place further on, and nothing else has moved. -/
structure Inserted (t t' : Tree) (p : Path) (i : Nat) (n : Node) : Prop where
  get? : t'.get? (p.child i) = some n
  before (j : Nat) (r : Path) : j < i → t'.element? (p ++ j :: r) = t.element? (p ++ j :: r)
  inside (r : Path) : t'.element? (p ++ i :: r) = (n.get? r).map Node.element
  behind (j : Nat) (r : Path) :
    i < j → t'.element? (p ++ j :: r) = t.element? (p ++ (j - 1) :: r)
  elsewhere (q : Path) : (∀ j r, q ≠ p ++ j :: r) → t'.element? q = t.element? q

/-- `t'` is `t` with child `i` of the node at `p` taken out: the children behind
it stand one place further up, and nothing else has moved. -/
structure Removed (t t' : Tree) (p : Path) (i : Nat) : Prop where
  behind (j : Nat) (r : Path) :
    i ≤ j → t'.element? (p ++ j :: r) = t.element? (p ++ (j + 1) :: r)
  elsewhere (q : Path) : (∀ j r, i ≤ j → q ≠ p ++ j :: r) → t'.element? q = t.element? q

/-- The look-ups below a node whose children have been replaced. -/
theorem element?_withChildren {t : Tree} {p : Path} {m : Node} (hm : t.get? p = some m)
    (cs : List Node) (j : Nat) (r : Path) :
    (t.modify p fun _ => m.withChildren cs).element? (p ++ j :: r)
      = (cs[j]? >>= Node.get? r).map Node.element := by
  rw [element?, get?_append_modify _ hm]
  rfl

/-- The look-ups below a node, child by child. -/
theorem element?_children {t : Tree} {p : Path} {m : Node} (hm : t.get? p = some m)
    (j : Nat) (r : Path) :
    t.element? (p ++ j :: r) = (m.children[j]? >>= Node.get? r).map Node.element := by
  rw [element?_append_of_get? hm]
  rfl

/-- An insertion that succeeds moves the later siblings and what is below them by one,
and nothing else. -/
theorem inserted_of_insert {t t' : Tree} {p a : Path} {i : Nat} {n : Node}
    (h : t.insert p i n = (.ok a, t')) : Inserted t t' p i n := by
  obtain ⟨m, hm, hi, -, rfl⟩ := insert_eq_ok_iff.mp h
  have hself : (m.children.insertIdx i n)[i]? = some n := by
    rw [List.getElem?_insertIdx_self, if_pos hi]
  -- below `p` the list of children decides, elsewhere the change is not seen
  refine ⟨?_, ?_, ?_, ?_, ?_⟩
  · rw [Path.child, get?_append_modify _ hm, Node.get?_cons, Node.withChildren, Node.children_mk,
      hself]
    rfl
  · intro j r hj
    rw [element?_withChildren hm, element?_children hm, List.getElem?_insertIdx_of_lt hj]
  · intro r
    rw [element?_withChildren hm, hself]
    rfl
  · intro j r hj
    rw [element?_withChildren hm, element?_children hm, List.getElem?_insertIdx_of_gt hj]
  · intro q hq
    exact element?_modify hm rfl hq

/-- A removal that succeeds moves the later siblings and what is below them back by one,
and nothing else. -/
theorem removed_of_remove {t t' : Tree} {p : Path} {i : Nat} {c : Node}
    (h : t.remove (p.child i) = (some c, t')) : Removed t t' p i := by
  obtain ⟨m, hm, -, rfl⟩ := remove_child_eq_some_iff.mp h
  refine ⟨?_, ?_⟩
  · intro j r hj
    rw [element?_withChildren hm, element?_children hm, List.getElem?_eraseIdx_of_ge hj]
  · intro q hq
    -- a path that is not below a moved child is below one in front of the gap, or not below `p`
    by_cases hbelow : ∃ j r, q = p ++ j :: r
    · obtain ⟨j, r, rfl⟩ := hbelow
      have hj : j < i := by
        by_contra hge
        exact hq j r (by omega) rfl
      rw [element?_withChildren hm, element?_children hm, List.getElem?_eraseIdx_of_lt hj]
    · refine element?_modify hm rfl ?_
      intro j r hqr
      exact hbelow ⟨j, r, hqr⟩

/-! ## Undoing -/

/-- Taking out what has just been put in gives it back and restores the tree. -/
theorem remove_of_insert {t t' : Tree} {p a : Path} {i : Nat} {n : Node}
    (h : t.insert p i n = (.ok a, t')) : t'.remove (p.child i) = (some n, t) := by
  obtain ⟨m, hm, hi, -, rfl⟩ := insert_eq_ok_iff.mp h
  -- the node at `p` is now the one with the longer list of children
  refine remove_child_eq_some_iff.mpr ⟨_, get?_modify_self _ hm, ?_, ?_⟩
  · rw [Node.withChildren, Node.children_mk, List.getElem?_insertIdx_self, if_pos hi]
  · have hback : (m.withChildren (m.children.insertIdx i n)).withChildren
        ((m.withChildren (m.children.insertIdx i n)).children.eraseIdx i) = m := by
      simp only [Node.withChildren, Node.children_mk, Node.element_mk,
        List.eraseIdx_insertIdx_self, Node.mk_element_children]
    rw [hback, modify_restore _ hm]

/-- Putting back what has just been taken out restores the tree. -/
theorem insert_of_remove {t t' : Tree} {p : Path} {i : Nat} {c : Node}
    (h : t.remove (p.child i) = (some c, t')) : t'.insert p i c = (.ok (p.child i), t) := by
  obtain ⟨m, hm, hc, rfl⟩ := remove_child_eq_some_iff.mp h
  obtain ⟨hi, hci⟩ := List.getElem?_eq_some_iff.mp hc
  refine insert_eq_ok_iff.mpr ⟨_, get?_modify_self _ hm, ?_, rfl, ?_⟩
  · rw [Node.withChildren, Node.children_mk, List.length_eraseIdx_of_lt hi]
    omega
  · have hback : (m.withChildren (m.children.eraseIdx i)).withChildren
        ((m.withChildren (m.children.eraseIdx i)).children.insertIdx i c) = m := by
      simp only [Node.withChildren, Node.children_mk, Node.element_mk]
      rw [← hci, List.insertIdx_eraseIdx_getElem hi, Node.mk_element_children]
    rw [hback, modify_restore _ hm]

/-! ## Edits as shifts -/

/-- Edits shift paths and touch nothing else. An insertion answers with the path
of the new node and an attached fragment goes behind the last child; a removal
answers with the node that was there. Each of an insertion and the removal at the
same place takes the other back. -/
theorem edits_shift_paths (t : Tree) (p : Path) (i : Nat) (n : Node) :
    (∀ a t', t.insert p i n = (.ok a, t') →
      a = p.child i ∧ Inserted t t' p i n ∧ t'.remove (p.child i) = (some n, t))
    ∧ (∀ a t', t.attach p (ofNode n) = (.ok a, t') →
      ∃ m, t.get? p = some m ∧ a = some (p.child m.children.length)
        ∧ Inserted t t' p m.children.length n
        ∧ t'.remove (p.child m.children.length) = (some n, t))
    ∧ (∀ c t', t.remove (p.child i) = (some c, t') →
      t.get? (p.child i) = some c ∧ Removed t t' p i ∧ t'.insert p i c = (.ok (p.child i), t))
    ∧ t.remove Path.root = (t.root, empty) := by
  refine ⟨?_, ?_, ?_, rfl⟩
  · intro a t' h
    obtain ⟨-, -, -, ha, -⟩ := insert_eq_ok_iff.mp h
    exact ⟨ha, inserted_of_insert h, remove_of_insert h⟩
  · intro a t' h
    obtain ⟨m, hm, ha, hins⟩ := insert_of_attach h
    exact ⟨m, hm, ha, inserted_of_insert hins, remove_of_insert hins⟩
  · intro c t' h
    obtain ⟨m, hm, hc, -⟩ := remove_child_eq_some_iff.mp h
    refine ⟨?_, removed_of_remove h, insert_of_remove h⟩
    rw [Path.child, get?_append, hm]
    show m.children[i]? >>= Node.get? [] = some c
    rw [hc]
    rfl

/-- A thread group with two samplers below a test plan, and a node put in
between them. -/
def twoSamplers (between : List Node) : Tree :=
  ofNode (.mk (.new .testPlan)
    [.mk (.new .threadGroup)
      (.leaf (.new .soapSampler) :: between ++ [.leaf (.new .httpSampler)])])

/-- The second sampler moves on when a node is put in front of it, and back when
that node is taken out; a node attached behind it can be taken out again too. -/
theorem second_sampler_shifts :
    let n := Node.leaf (.new .headerManager)
    (twoSamplers []).insert [0] 1 n = (.ok [0, 1], twoSamplers [n])
    ∧ (twoSamplers [n]).element? [0, 2] = (twoSamplers []).element? [0, 1]
    ∧ (twoSamplers [n]).remove [0, 1] = (some n, twoSamplers [])
    ∧ ((twoSamplers []).attach [0] (ofNode n)).2.remove [0, 2] = (some n, twoSamplers [])
    ∧ (twoSamplers [n]).get? [0, 1] = some n := by
  intro n
  have hins : (twoSamplers []).insert [0] 1 n = (.ok [0, 1], twoSamplers [n]) := rfl
  have hatt : (twoSamplers []).attach [0] (ofNode n)
      = (.ok (some [0, 2]), ((twoSamplers []).attach [0] (ofNode n)).2) := rfl
  obtain ⟨-, hshift, hback⟩ := (edits_shift_paths (twoSamplers []) [0] 1 n).1 _ _ hins
  obtain ⟨m, hm, -, -, hundo⟩ := (edits_shift_paths (twoSamplers []) [0] 1 n).2.1 _ _ hatt
  obtain ⟨hget, -, -⟩ := (edits_shift_paths (twoSamplers [n]) [0] 1 n).2.2.1 _ _ hback
  have hlen : m.children.length = 2 := by
    rw [← Option.some.inj hm]
    rfl
  rw [hlen] at hundo
  exact ⟨hins, hshift.behind 2 [] (by decide), hback, hundo, hget⟩

end Tree

end LoadTest
