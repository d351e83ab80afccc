/-
Looking nodes up by path, and what a tree's look-ups say about the tree.

A path is followed one child index at a time, so a look-up along `p ++ q` is a
look-up along `p` and then along `q` from the node that was found. Nothing but
the elements at the paths makes up a tree: two trees with the same element, or
none, at every path are equal (`Tree.ext_element?`). Statements about edits and
about encodings are brought to that form.
-/
import LoadTest.Tree.Basic

set_option autoImplicit false

namespace LoadTest

/-! ## Induction over nodes -/

/-- What holds of a node as soon as it holds of all its children holds of every
node. The recursion of `Node` runs through the list of children, and this is
the form in which that list is a list of induction hypotheses. -/
@[induction_eliminator]
theorem Node.induction {motive : Node → Prop}
    (mk : ∀ (e : Element) (cs : List Node), (∀ c ∈ cs, motive c) → motive (.mk e cs))
    (n : Node) : motive n := by
  refine @Node.rec motive (fun cs => ∀ c ∈ cs, motive c) mk ?_ ?_ n
  · intro c hc
    exact absurd hc List.not_mem_nil
  · intro m ms hm hms c hc
    rcases List.mem_cons.mp hc with h | h
    · rw [h]
      exact hm
    · exact hms c h

/-! ## Levels -/

namespace Node

theorem height_le_of_mem {cs : List Node} {c : Node} (hc : c ∈ cs) :
    c.height ≤ forestHeight cs := by
  induction cs with
  | nil => exact absurd hc List.not_mem_nil
  | cons n ns ih =>
    rw [forestHeight]
    rcases List.mem_cons.mp hc with rfl | hns
    · exact Nat.le_max_left _ _
    · have h := ih hns
      omega

/-- Every level has a node. -/
theorem height_le_nodeCount (n : Node) : n.height ≤ n.nodeCount := by
  induction n with
  | mk e cs ih =>
    have hforest : forestHeight cs ≤ forestCount cs := by
      clear e
      induction cs with
      | nil => exact Nat.le_refl _
      | cons c cs ihcs =>
        have hc := ih c List.mem_cons_self
        have hcs := ihcs fun c' hc' => ih c' (List.mem_cons_of_mem _ hc')
        rw [forestHeight, forestCount]
        omega
    rw [height, nodeCount]
    omega

/-! ## Look-ups along joined paths -/

/-- Going down `p ++ q` is going down `p`, and then `q` from there. -/
theorem get?_append (p q : Path) (n : Node) : get? (p ++ q) n = get? p n >>= get? q := by
  induction p generalizing n with
  | nil => rfl
  | cons i p ih =>
    rw [List.cons_append, get?_cons, get?_cons]
    rcases h : n.children[i]? with _ | c
    · rfl
    · exact ih c

end Node

namespace Tree

/-- Going down `p ++ q` is going down `p`, and then `q` from there. -/
theorem get?_append (t : Tree) (p q : Path) : t.get? (p ++ q) = t.get? p >>= Node.get? q := by
  rw [get?, get?]
  rcases h : t.root with _ | n
  · rfl
  · exact Node.get?_append p q n

theorem element?_append (t : Tree) (p q : Path) :
    t.element? (p ++ q) = (t.get? p >>= Node.get? q).map Node.element := by
  rw [element?, get?_append]

/-- Below a node that is there, look-ups are look-ups in that node. -/
theorem element?_append_of_get? {t : Tree} {p : Path} {n : Node} (h : t.get? p = some n)
    (q : Path) : t.element? (p ++ q) = (n.get? q).map Node.element := by
  rw [element?_append, h]
  rfl

end Tree

/-! ## Extensionality -/

/-- Nodes with the same element, or none, at every path are equal. -/
theorem Node.ext_element {m n : Node}
    (h : ∀ p, (m.get? p).map Node.element = (n.get? p).map Node.element) : m = n := by
  induction m generalizing n with
  | mk e cs ih =>
    obtain ⟨e', cs'⟩ := n
    have he : e = e' := by simpa using h []
    have hcs : cs = cs' := by
      refine List.ext_getElem? ?_
      intro i
      have hi := h [i]
      simp only [Node.get?_cons, Node.children_mk] at hi
      rcases hc : cs[i]? with _ | c
      · rcases hc' : cs'[i]? with _ | c'
        · rfl
        · rw [hc, hc'] at hi
          simp at hi
      · rcases hc' : cs'[i]? with _ | c'
        · rw [hc, hc'] at hi
          simp at hi
        · -- below child `i` the hypothesis is the same one, with `i` in front of the path
          have hsub : c = c' := by
            refine ih c (List.mem_of_getElem? hc) ?_
            intro p
            have hp := h (i :: p)
            rw [Node.get?_cons, Node.get?_cons, Node.children_mk, Node.children_mk, hc, hc'] at hp
            exact hp
          rw [hsub]
    rw [he, hcs]

/-- Trees with the same element, or none, at every path are equal. -/
theorem Tree.ext_element? {s t : Tree} (h : ∀ p, s.element? p = t.element? p) : s = t := by
  obtain ⟨a⟩ := s
  obtain ⟨b⟩ := t
  rcases a with _ | m
  · rcases b with _ | n
    · rfl
    · have hroot := h []
      simp [Tree.element?] at hroot
  · rcases b with _ | n
    · have hroot := h []
      simp [Tree.element?] at hroot
    · rw [Node.ext_element (m := m) (n := n) h]

end LoadTest
