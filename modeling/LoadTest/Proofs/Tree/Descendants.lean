/-
What stands below a node is one block of the traversal.

"Below" is said in two ways. For paths it is being a proper continuation, which
is the same as being reached by steps from child to child (`Path.child_steps_iff`).
For a node it is being part of its subtree. The two meet in the traversal: the
visits of paths below `p` are those that follow the visit of `p` at once, as many
as the subtree has nodes besides its root (`Tree.Block`).

The block comes from the stack. When the node at `p` is on top, what is still to
be visited is its subtree and then the rest of the stack (`Traversal.run_eq`), and
what is still to be visited after `k` rounds is the traversal without its first
`k` visits (`Traversal.run_iterate`). That no other visit is below `p` needs no
look at the stack: a look-up below `p` is a look-up in the subtree, and no path is
visited twice.
-/
import LoadTest.Proofs.Tree.Preorder
import Mathlib.Data.List.Induction
import Mathlib.Logic.Relation
import Mathlib.Order.Defs.Unbundled

set_option autoImplicit false

namespace LoadTest

/-! ## Ancestors by steps -/

namespace Path

theorem parent?_eq_some_iff {p q : Path} : q.parent? = some p ↔ ∃ i, q = p.child i := by
  constructor
  · intro h
    obtain ⟨i, -, hq⟩ := eq_child_of_parent? h
    exact ⟨i, hq⟩
  · rintro ⟨i, rfl⟩
    exact parent?_child p i

theorem not_isAncestorOf_self (p : Path) : ¬ p.isAncestorOf p = true := by
  rw [isAncestorOf_iff]
  exact fun h => h.2 rfl

/-- Above a child stand its parent and what is above the parent. -/
theorem isAncestorOf_child_iff {p q : Path} {i : Nat} :
    p.isAncestorOf (q.child i) = true ↔ p = q ∨ p.isAncestorOf q = true := by
  rw [isAncestorOf_iff, isAncestorOf_iff, child, List.prefix_concat_iff]
  constructor
  · rintro ⟨h | h, hne⟩
    · exact absurd h hne
    · by_cases hpq : p = q
      · exact .inl hpq
      · exact .inr ⟨h, hpq⟩
  · intro h
    have hpre : p <+: q := by
      rcases h with rfl | ⟨h, -⟩
      · exact List.prefix_rfl
      · exact h
    -- a beginning of `q` is shorter than the path of a child
    refine ⟨.inr hpre, fun heq => ?_⟩
    have hlen := hpre.length_le
    rw [heq, List.length_append, List.length_singleton] at hlen
    omega

/-- An ancestor is where steps down to children start from. -/
theorem child_steps_iff {p q : Path} :
    p.isAncestorOf q = true ↔ Relation.TransGen (fun a b => ∃ i, b = a.child i) p q := by
  constructor
  · induction q using List.reverseRecOn with
    | nil =>
      intro h
      rw [isAncestorOf_iff, List.prefix_nil] at h
      exact absurd h.1 h.2
    | append_singleton q i ih =>
      intro h
      have hstep : ∃ j, q ++ [i] = child q j := ⟨i, rfl⟩
      rcases isAncestorOf_child_iff.mp h with rfl | hq
      · exact .single hstep
      · exact .tail (ih hq) hstep
  · intro h
    induction h with
    | single hstep =>
      obtain ⟨i, rfl⟩ := hstep
      exact isAncestorOf_child_iff.mpr (.inl rfl)
    | tail _ hstep ih =>
      obtain ⟨i, rfl⟩ := hstep
      exact isAncestorOf_child_iff.mpr (.inr ih)

/-- An ancestor is where steps up to parents lead to. -/
theorem parent_steps_iff {p q : Path} :
    p.isAncestorOf q = true ↔ Relation.TransGen (fun a b => a.parent? = some b) q p := by
  have hswap : (fun a b : Path => a.parent? = some b)
      = Function.swap fun a b => ∃ i, b = a.child i := by
    funext a b
    exact propext parent?_eq_some_iff
  rw [child_steps_iff, hswap, Relation.transGen_swap]

theorem isStrictOrder_isAncestorOf : IsStrictOrder Path fun p q => p.isAncestorOf q = true where
  irrefl := not_isAncestorOf_self
  trans p q r hpq hqr := by
    rw [child_steps_iff] at hpq hqr ⊢
    exact hpq.trans hqr

end Path

/-! ## Blocks -/

namespace Tree

open Traversal (under)

/-- The visit number `k`, of the node `n` at the path `p`, opens a block: it is
followed at once by what stands below `p`, and by nothing else for as long as
there are nodes in `n`. -/
structure Block (t : Tree) (k : Nat) (p : Path) (n : Node) : Prop where
  /-- The visits of paths below `p` are those behind the first one of the block. -/
  isAncestorOf_iff : ∀ j q m, t.depthFirst[j]? = some (q, m) →
    (p.isAncestorOf q = true ↔ k + 1 ≤ j ∧ j ≤ k + n.nodeCount - 1)
  /-- The block is not cut off by the end of the traversal. -/
  le_nodeCount : k + n.nodeCount ≤ t.nodeCount
  /-- From its first visit on the block is the traversal of `n`, with `p` in front
  of the paths. -/
  whole : (t.depthFirst.drop k).take n.nodeCount = (ofNode n).depthFirst.map (under p)
  /-- The visits below `p` are those that the traversal of `n` makes below its root. -/
  below : (t.depthFirst.drop (k + 1)).take (n.nodeCount - 1)
    = (ofNode n).depthFirst.tail.map (under p)

theorem depthFirst_ofNode (n : Node) : (ofNode n).depthFirst = n.preorder := depthFirst_eq _

/-- No path is visited twice. -/
theorem position_unique {t : Tree} {i j : Nat} {p : Path} {m n : Node}
    (hi : t.depthFirst[i]? = some (p, m)) (hj : t.depthFirst[j]? = some (p, n)) : i = j := by
  have hnodup : (t.depthFirst.map Prod.fst).Nodup := t.pairwise_depthFirst.imp ne_of_lt
  have hlt : i < (t.depthFirst.map Prod.fst).length := by
    rw [List.length_map]
    exact (List.getElem?_eq_some_iff.mp hi).1
  refine (List.getElem?_inj hlt hnodup).mp ?_
  rw [List.getElem?_map, List.getElem?_map, hi, hj]
  rfl

/-- With a node its whole subtree is visited, before anything else. -/
theorem drop_depthFirst {t : Tree} {k : Nat} {p : Path} {n : Node}
    (h : t.depthFirst[k]? = some (p, n)) :
    ∃ rest, t.depthFirst.drop k = n.preorder.map (under p) ++ rest := by
  have htop : (Traversal.advance^[k] (Traversal.start t)).head? = some (p, n) := by
    rw [← Traversal.getElem?_run]
    exact h
  obtain ⟨st, hst⟩ := List.head?_eq_some_iff.mp htop
  refine ⟨Traversal.run st, ?_⟩
  calc t.depthFirst.drop k = Traversal.run (Traversal.advance^[k] (Traversal.start t)) :=
        (Traversal.run_iterate _ k).symm
    _ = n.preorder.map (under p) ++ Traversal.run st := by
        rw [hst, Traversal.run_eq, Traversal.run_eq, List.flatMap_cons]

/-- Visit by visit, the block of a node is the preorder of the node. -/
theorem getElem?_block {t : Tree} {k i : Nat} {p : Path} {n : Node}
    (h : t.depthFirst[k]? = some (p, n)) (hi : i < n.nodeCount) :
    t.depthFirst[k + i]? = n.preorder[i]?.map (under p) := by
  obtain ⟨rest, hrest⟩ := drop_depthFirst h
  have hlen : i < (n.preorder.map (under p)).length := by
    rw [List.length_map, n.length_preorder]
    exact hi
  rw [← List.getElem?_drop, hrest, List.getElem?_append_left hlen, List.getElem?_map]

/-- What is below a visited node is visited within its block. -/
theorem position_of_isAncestorOf {t : Tree} {k j : Nat} {p q : Path} {n m : Node}
    (hk : t.depthFirst[k]? = some (p, n)) (hj : t.depthFirst[j]? = some (q, m))
    (hpq : p.isAncestorOf q = true) : k < j ∧ j < k + n.nodeCount := by
  obtain ⟨⟨r, rfl⟩, hne⟩ := (Path.isAncestorOf_iff p q).mp hpq
  have hr : n.get? r = some m := by
    have hget := mem_depthFirst.mp (List.mem_of_getElem? hj)
    rw [get?_append, mem_depthFirst.mp (List.mem_of_getElem? hk)] at hget
    exact hget
  obtain ⟨i, hi⟩ := List.getElem?_of_mem (Node.mem_preorder.mpr hr)
  have hlt : i < n.nodeCount := by
    rw [← n.length_preorder]
    exact (List.getElem?_eq_some_iff.mp hi).1
  -- the block visits `p ++ r` too, so that is the visit meant
  have hvisit : t.depthFirst[k + i]? = some (p ++ r, m) := by
    rw [getElem?_block hk hlt, hi]
    rfl
  obtain rfl := position_unique hj hvisit
  have hi0 : i ≠ 0 := by
    rintro rfl
    rw [Nat.add_zero, hk] at hj
    exact hne (Prod.mk.inj (Option.some.inj hj)).1
  omega

/-- What is visited within the block of a node, behind the node, is below it. -/
theorem isAncestorOf_of_position {t : Tree} {k j : Nat} {p q : Path} {n m : Node}
    (hk : t.depthFirst[k]? = some (p, n)) (hj : t.depthFirst[j]? = some (q, m))
    (hkj : k < j) (hjk : j < k + n.nodeCount) : p.isAncestorOf q = true := by
  obtain ⟨i, rfl⟩ := Nat.exists_eq_add_of_le hkj.le
  have hvisit := getElem?_block hk (i := i) (by omega)
  rw [hj] at hvisit
  obtain ⟨⟨r, m'⟩, -, hqm⟩ := Option.map_eq_some_iff.mp hvisit.symm
  obtain ⟨rfl, rfl⟩ := Prod.mk.inj hqm
  refine (Path.isAncestorOf_iff p _).mpr ⟨List.prefix_append p r, fun heq => ?_⟩
  -- the visit of `p` itself is the first of the block
  have hfirst : k + i = k := position_unique hj (heq ▸ hk)
  omega

theorem block_of_getElem? {t : Tree} {k : Nat} {p : Path} {n : Node}
    (h : t.depthFirst[k]? = some (p, n)) : Block t k p n := by
  have hpos := n.nodeCount_pos
  obtain ⟨rest, hrest⟩ := drop_depthFirst h
  have hlen : (n.preorder.map (under p)).length = n.nodeCount := by
    rw [List.length_map, n.length_preorder]
  have hwhole : (t.depthFirst.drop k).take n.nodeCount = n.preorder.map (under p) := by
    rw [hrest, List.take_left' hlen]
  refine ⟨?_, ?_, ?_, ?_⟩
  · intro j q m hj
    constructor
    · intro hpq
      have hbounds := position_of_isAncestorOf h hj hpq
      omega
    · rintro ⟨hkj, hjk⟩
      exact isAncestorOf_of_position h hj (by omega) (by omega)
  · have hrestlen := congrArg List.length hrest
    rw [List.length_drop, List.length_append, hlen, length_depthFirst] at hrestlen
    omega
  · rw [hwhole, depthFirst_ofNode]
  · rw [depthFirst_ofNode, List.map_tail, ← hwhole, ← List.drop_one, List.drop_take, List.drop_drop]

/-- Above a node that is there stand nodes that are there. -/
theorem isSome_get?_of_isAncestorOf {t : Tree} {p q : Path} (hpq : p.isAncestorOf q = true)
    (hq : (t.get? q).isSome = true) : (t.get? p).isSome = true := by
  obtain ⟨⟨r, rfl⟩, -⟩ := (Path.isAncestorOf_iff p q).mp hpq
  rw [get?_append] at hq
  exact Option.isSome_of_isSome_bind hq

/-- Being an ancestor is being above by one or more steps, whether these are steps
up to parents or down to children, and it is a strict order. A tree that has the
node at a path has the nodes at all ancestors of the path. A traversal visits what
is below a node in one block right behind the node, and there it does what the
traversal of the subtree does. -/
theorem subtrees_are_blocks (t : Tree) :
    (∀ p q : Path, p.isAncestorOf q = true ↔
      Relation.TransGen (fun a b => a.parent? = some b) q p)
    ∧ (∀ p q : Path, p.isAncestorOf q = true ↔
      Relation.TransGen (fun a b => ∃ i, b = a.child i) p q)
    ∧ (IsStrictOrder Path fun p q => p.isAncestorOf q = true)
    ∧ (∀ p q, p.isAncestorOf q = true → (t.get? q).isSome = true → (t.get? p).isSome = true)
    ∧ ∀ k p n, t.depthFirst[k]? = some (p, n) → Block t k p n := by
  refine ⟨?_, ?_, Path.isStrictOrder_isAncestorOf, ?_, ?_⟩
  · exact fun p q => Path.parent_steps_iff
  · exact fun p q => Path.child_steps_iff
  · exact fun p q => isSome_get?_of_isAncestorOf
  · exact fun k p n => block_of_getElem?

/-- The thread group is met after the cookie manager. What is below it comes next,
three nodes with the assertion below the sampler; the result collector behind it
is below the plan only. -/
theorem group_opens_block :
    let group := Node.mk (.new .threadGroup)
      [.mk (.new .httpSampler) [.leaf (.new .responseAssertion)], .leaf (.new .headerManager)]
    let t := ofNode (.mk (.new .testPlan)
      [.leaf (.new .cookieManager), group, .leaf (.new .resultCollector)])
    t.depthFirst[2]? = some ([1], group)
    ∧ ((t.depthFirst.drop 3).take 3).map Prod.fst = [[1, 0], [1, 0, 0], [1, 1]]
    ∧ t.depthFirst[6]? = some ([2], .leaf (.new .resultCollector))
    ∧ Path.isAncestorOf [1] [2] = false
    ∧ (t.get? [1, 0, 0]).isSome = true ∧ Path.isAncestorOf [1] [1, 0, 0] = true
    ∧ (t.get? [1]).isSome = true := by
  intro group t
  obtain ⟨-, -, -, habove, hblocks⟩ := subtrees_are_blocks t
  have hgroup : t.depthFirst[2]? = some ([1], group) := by
    rw [depthFirst_ofNode]
    rfl
  have hlast : t.depthFirst[6]? = some ([2], .leaf (.new .resultCollector)) := by
    rw [depthFirst_ofNode]
    rfl
  have hblock := hblocks 2 [1] group hgroup
  have hcount : group.nodeCount = 4 := rfl
  have hbelow := hblock.below
  rw [hcount] at hbelow
  refine ⟨hgroup, ?_, hlast, ?_, rfl, rfl, habove [1] [1, 0, 0] rfl rfl⟩
  · rw [hbelow, depthFirst_ofNode]
    rfl
  · rw [← Bool.not_eq_true, hblock.isAncestorOf_iff 6 _ _ hlast, hcount]
    omega

end Tree

end LoadTest
