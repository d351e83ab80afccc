/-
Where the header manager goes.

The filter for headers looks for the scope of a tree by a traversal and then
inserts at the path it has found. Neither step needs to know how the other works.
The traversal visits the nodes in the order of their paths, so the thread group it
meets first is the one whose path comes first (`Filter.scope?_eq_some_iff`); and a
path that was found is the path of a node, in front of whose children there is
always a place. The insertion therefore cannot be refused, whatever the tree looks
like: thread groups may stand anywhere, in each other, beside each other or not at
all.
-/
import LoadTest.Proofs.Plan.Run

set_option autoImplicit false

namespace LoadTest

/-! ## The scope of a tree -/

/-- The path of the node that owns what belongs to a user. -/
inductive Tree.IsScope (t : Tree) : Path → Prop where
  /-- There is a thread group, and no other one has a path in front of this one. -/
  | group {p : Path} {m : Node} (hm : t.get? p = some m) (hkind : m.element.kind = .threadGroup)
      (hfirst : ∀ q k, t.get? q = some k → k.element.kind = .threadGroup →
        p = q ∨ p.cmp q = .lt) : IsScope t p
  /-- There are nodes, and none of them is a thread group. -/
  | root {m : Node} (hm : t.get? Path.root = some m)
      (hnone : ∀ q k, t.get? q = some k → k.element.kind ≠ .threadGroup) : IsScope t Path.root

namespace Filter

theorem mem_findGroup {t : Tree} {p : Path} :
    p ∈ t.findKind .threadGroup ↔ ∃ m, t.get? p = some m ∧ m.element.kind = .threadGroup := by
  simp only [Tree.findKind, Tree.mem_findPaths, beq_iff_eq]

/-- Thread groups are found in the order of their paths. -/
theorem pairwise_findGroup (t : Tree) : (t.findKind .threadGroup).Pairwise (· < ·) :=
  t.pairwise_depthFirst.sublist (List.filter_sublist.map Prod.fst)

/-- The search for the scope finds it. -/
theorem isScope_of_scope? {t : Tree} {p : Path} (h : scope? t = some p) : t.IsScope p := by
  rw [scope?, Tree.isEmpty] at h
  rcases hroot : t.root with _ | n
  · rw [hroot] at h
    cases h
  · rw [hroot] at h
    have hp : (t.findKind .threadGroup).head?.getD Path.root = p := Option.some.inj h
    have hsorted := pairwise_findGroup t
    rcases hfound : t.findKind .threadGroup with _ | ⟨q, qs⟩
    · rw [hfound] at hp
      subst hp
      refine .root ((Tree.get?_root t).trans hroot) fun q k hk hkind => ?_
      have hq := mem_findGroup.mpr ⟨k, hk, hkind⟩
      rw [hfound] at hq
      exact absurd hq List.not_mem_nil
    · rw [hfound] at hp hsorted
      obtain rfl : q = p := hp
      obtain ⟨m, hm, hkind⟩ := mem_findGroup.mp (hfound ▸ List.mem_cons_self)
      refine .group hm hkind fun q' k hk hk' => ?_
      have hq' := mem_findGroup.mpr ⟨k, hk, hk'⟩
      rw [hfound] at hq'
      rcases List.mem_cons.mp hq' with rfl | hlater
      · exact .inl rfl
      · exact .inr ((Path.cmp_eq_lt_iff _ _).mpr ((List.pairwise_cons.mp hsorted).1 _ hlater))

/-- There is at most one scope. -/
theorem isScope_unique {t : Tree} {p q : Path} (hp : t.IsScope p) (hq : t.IsScope q) : p = q := by
  rcases hp with ⟨hp, hpkind, hpfirst⟩ | ⟨-, hnone⟩
  · rcases hq with ⟨hq, hqkind, hqfirst⟩ | ⟨-, hnone⟩
    · -- each of the two would have to come in front of the other
      rcases hpfirst _ _ hq hqkind with h | hpq
      · exact h
      · rcases hqfirst _ _ hp hpkind with h | hqp
        · exact h.symm
        · rw [Path.cmp_eq_lt_iff] at hpq hqp
          exact absurd hqp (lt_asymm hpq)
    · exact absurd hpkind (hnone _ _ hp)
  · rcases hq with ⟨hq, hqkind, -⟩ | -
    · exact absurd hqkind (hnone _ _ hq)
    · rfl

theorem scope?_eq_some_iff {t : Tree} {p : Path} : scope? t = some p ↔ t.IsScope p := by
  refine ⟨isScope_of_scope?, fun hp => ?_⟩
  obtain ⟨root⟩ := t
  rcases root with _ | n
  · -- the empty tree has no node that could be the scope
    rcases hp with ⟨hm, -⟩ | ⟨hm, -⟩ <;> cases hm
  · have hfound := scope?_ofNode n
    rw [isScope_unique hp (isScope_of_scope? hfound)]
    exact hfound

/-! ## Headers -/

/-- The header manager for some headers. -/
def headerManager (d : ElementDefaults) (headers : Headers) : Element :=
  (d.newElement .headerManager).withProperty headersKey (.table headers.entries)

theorem property?_headerManager (d : ElementDefaults) (headers : Headers) :
    (headerManager d headers).property? headersKey = some (.table headers.entries) := by
  rw [headerManager, Element.property?_withProperty, if_pos rfl]

/-- With headers and a node to put them below, the filter is the insertion of the
header manager at the scope. -/
theorem insert_headerManager {headers : Headers} (hheaders : headers.isEmpty = false)
    (d : ElementDefaults) (w : Workload) (n : Node) :
    (Tree.ofNode n).insert n.scope 0 (.leaf (headerManager d headers))
      = (.ok (n.scope.child 0), ((headerDefaults headers).apply d w (.ofNode n)).value) := by
  rw [Plan.value_headerDefaults_ofNode, Plan.filtered, Plan.headerManagers, hheaders]
  exact Plan.insert_scope n _

/-- The filter for headers leaves a tree as it is if there are no headers or no
nodes. Otherwise it inserts one header manager, which holds all headers in their
order, in front of the children of the scope, and this is all that it changes:
taking the header manager out again gives the tree back. The scope is the thread
group whose path comes first, or the root if there is no thread group; so the
insertion is never refused, and no refusal is ever noted. -/
theorem headers_go_to_first_group (headers : Headers) (d : ElementDefaults) (w : Workload)
    (t : Tree) :
    let out := (headerDefaults headers).apply d w t
    let manager := Node.leaf (headerManager d headers)
    (headers.isEmpty = true ∨ t.isEmpty = true → out.value = t)
    ∧ (headers.isEmpty = false ∧ t.isEmpty = false → ∃ p, t.IsScope p
      ∧ t.insert p 0 manager = (.ok (p.child 0), out.value)
      ∧ Tree.Inserted t out.value p 0 manager
      ∧ out.value.remove (p.child 0) = (some manager, t))
    ∧ manager.element.kind = .headerManager
    ∧ manager.element.property? headersKey = some (.table headers.entries)
    ∧ ∀ p err, .event (.headerManagerRefused p err) ∉ out.journal := by
  intro out manager
  refine ⟨?_, ?_, rfl, property?_headerManager d headers, ?_⟩
  · intro h
    obtain ⟨root⟩ := t
    rcases root with _ | n
    · exact Plan.value_apply_eq d w (.headerDefaults headers) ⟨none⟩
    · have hheaders : headers.isEmpty = true := h.resolve_right Bool.false_ne_true
      show (if headers.isEmpty then pure _ else _ : Logged Tree).value = _
      rw [if_pos hheaders]
      rfl
  · rintro ⟨hheaders, ht⟩
    obtain ⟨root⟩ := t
    rcases root with _ | n
    · cases ht
    · have hins := insert_headerManager hheaders d w n
      exact ⟨n.scope, scope?_eq_some_iff.mp (scope?_ofNode n), hins,
        Tree.inserted_of_insert hins, Tree.remove_of_insert hins⟩
  · -- the creation of the header manager is the only entry there can be
    intro p err hmem
    have hjournal := Plan.journal_headerDefaults d w headers t
    rw [hjournal] at hmem
    by_cases h : (headers.isEmpty || t.isEmpty) = true
    · rw [if_pos h] at hmem
      exact absurd hmem List.not_mem_nil
    · rw [if_neg h, List.mem_singleton] at hmem
      cases hmem

/-- A thread group below a sampler stands in front of one that is higher up. The
header manager goes into the former; without headers it goes nowhere. -/
theorem first_group_may_be_the_deeper :
    let t := Tree.ofNode (.mk (.new .testPlan)
      [.mk (.new .soapSampler) [.mk (.new .threadGroup) [.leaf (.new .cookieManager)]],
        .leaf (.new .threadGroup)])
    let headers : Headers := ⟨[("Host", "a"), ("Accept", "*")], by decide⟩
    let out := ((headerDefaults headers).apply .empty .empty t).value
    t.IsScope [0, 0]
    ∧ out.get? [0, 0, 0] = some (.leaf (headerManager .empty headers))
    ∧ out.element? [0, 0, 1] = t.element? [0, 0, 0]
    ∧ out.element? [1] = t.element? [1]
    ∧ ((headerDefaults .empty).apply .empty .empty t).value = t := by
  intro t headers out
  obtain ⟨p, hp, -, hshift, -⟩ :=
    (headers_go_to_first_group headers .empty .empty t).2.1 ⟨rfl, rfl⟩
  have hscope : t.IsScope [0, 0] := scope?_eq_some_iff.mp (scope?_ofNode _)
  obtain rfl := isScope_unique hp hscope
  refine ⟨hscope, hshift.get?, hshift.behind 1 [] (by decide), ?_, ?_⟩
  · exact hshift.elsewhere [1] fun j r h => by cases h
  · exact (headers_go_to_first_group .empty .empty .empty t).1 (.inl rfl)

end Filter

end LoadTest
