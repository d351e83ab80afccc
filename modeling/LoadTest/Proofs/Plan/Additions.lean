/-
What one filter of a configuration makes of any tree.

The closed form of a compiled plan follows the filters over the one tree that a
layout builds. Here the tree may be any: whatever its kinds and its shape, a
filter is a function on the root (`filtered`), which puts header managers in
front of the children of the scope, timers behind the children of samplers and
collectors behind the children of the root. A chain is these functions one after
the other, and it leaves the empty tree empty (`value_chain_eq`).

The scope is found by a search through the traversal. That search is brought to
a recursion over the tree, child by child, since this is how the changes of
other filters reach it.
-/
import LoadTest.Proofs.Plan.ClosedForm
import LoadTest.Proofs.Tree.Edit
import LoadTest.Proofs.Tree.Preorder

set_option autoImplicit false

namespace LoadTest

/-! ## The first thread group -/

namespace Node

open Traversal (under)

/-- Whether a visit is one of a thread group. -/
def meetsGroup (v : Path × Node) : Bool := v.2.element.kind == .threadGroup

/-- The path of the first thread group in a node. -/
def firstGroup? (n : Node) : Option Path := (n.preorder.find? meetsGroup).map Prod.fst

/-- The path of the first thread group in children that are numbered from `i`. -/
def forestGroup? (i : Nat) (ns : List Node) : Option Path :=
  ((forestPreorder i ns).find? meetsGroup).map Prod.fst

/-- A group is the first one in its own tree. Any other node has it among its children,
if at all. -/
theorem firstGroup?_mk (e : Element) (cs : List Node) :
    firstGroup? (.mk e cs) = if e.kind = .threadGroup then some [] else forestGroup? 0 cs := by
  rw [firstGroup?, preorder, List.find?_cons, meetsGroup, element_mk]
  by_cases he : e.kind = .threadGroup
  · simp [he]
  · have he' : (e.kind == ElementKind.threadGroup) = false := beq_false_of_ne he
    rw [he', if_neg he]
    rfl

/-- The first group is in the first child that has one. -/
theorem forestGroup?_cons (i : Nat) (n : Node) (ns : List Node) :
    forestGroup? i (n :: ns) = (n.firstGroup?.map (i :: ·)).or (forestGroup? (i + 1) ns) := by
  -- the path in front of a visit does not change what is visited
  have hunder : meetsGroup ∘ under [i] = meetsGroup := rfl
  rw [forestGroup?, forestPreorder, List.find?_append, List.find?_map, hunder, firstGroup?]
  rcases n.preorder.find? meetsGroup with _ | v
  · rfl
  · rfl

/-- The first group is in the first stretch of children, if that has one. -/
theorem forestGroup?_append (i : Nat) (ms ns : List Node) :
    forestGroup? i (ms ++ ns) = (forestGroup? i ms).or (forestGroup? (i + ms.length) ns) := by
  induction ms generalizing i with
  | nil => rfl
  | cons m ms ih =>
    have hlen : i + 1 + ms.length = i + (m :: ms).length := by
      rw [List.length_cons]
      omega
    rw [List.cons_append, forestGroup?_cons, forestGroup?_cons, ih, Option.or_assoc, hlen]

/-- Leaves of other kinds are passed over. -/
theorem forestGroup?_leaves {ns : List Node}
    (hns : ∀ n ∈ ns, ∃ e, n = leaf e ∧ e.kind ≠ .threadGroup) (i : Nat) :
    forestGroup? i ns = none := by
  induction ns generalizing i with
  | nil => rfl
  | cons n ns ih =>
    obtain ⟨e, rfl, he⟩ := hns n List.mem_cons_self
    have hrest := ih (fun m hm => hns m (List.mem_cons_of_mem _ hm)) (i + 1)
    rw [forestGroup?_cons, leaf, firstGroup?_mk, if_neg he, hrest]
    rfl

/-- The path of the scope of a node: the first thread group, or the node. -/
def scope (n : Node) : Path := n.firstGroup?.getD Path.root

/-- The scope is there, and it is a thread group unless it is the node itself. -/
theorem get?_scope (n : Node) :
    ∃ m, n.get? n.scope = some m ∧ (n.scope = [] ∨ m.element.kind = .threadGroup) := by
  rw [scope]
  rcases hfirst : n.firstGroup? with _ | p
  · exact ⟨n, rfl, .inl rfl⟩
  · obtain ⟨⟨q, m⟩, hfound, rfl⟩ := Option.map_eq_some_iff.mp hfirst
    have hmem := mem_preorder.mp (List.mem_of_find?_eq_some hfound)
    have hkind := List.find?_some hfound
    exact ⟨m, hmem, .inr (by simpa [meetsGroup] using hkind)⟩

end Node

/-- Headers are put into the first group, or under the root if there is none. -/
theorem Filter.scope?_ofNode (n : Node) : Filter.scope? (.ofNode n) = some n.scope := by
  have hfirst : (Tree.findKind (.ofNode n) .threadGroup).head? = n.firstGroup? := by
    rw [Tree.findKind, Tree.findPaths, Tree.depthFirst_eq, List.head?_map, List.head?_filter]
    rfl
  rw [Filter.scope?, hfirst]
  rfl

/-! ## One filter -/

namespace Plan

open LoadTest.Filter (timedNode forestSamplers)

/-- Put subtrees in front of the children of a node. -/
def precede (added : List Node) (n : Node) : Node := n.withChildren (added ++ n.children)

section Filtered

variable (d : ElementDefaults) (w : Workload)

/-- The root of a tree after one filter. -/
def filtered : FilterSpec → Node → Node
  | .identity, n => n
  | .headerDefaults headers, n =>
    n.modify (precede (headerManagers d (.headerDefaults headers))) n.scope
  | .thinkTime fallback, n => timedNode fallback d w 0 n
  | .resultCollector filename, n =>
    n.withChildren (n.children ++ collectors d (.resultCollector filename))

/-- What the header filter adds are header managers, and leaves. -/
theorem headerManagers_leaf (spec : FilterSpec) :
    ∀ n ∈ headerManagers d spec, ∃ e, n = .leaf e ∧ e.kind = .headerManager
      ∧ e.name = ElementKind.headerManager.defaultName := by
  intro n hn
  rcases spec with _ | headers | fallback | filename
  · exact absurd hn List.not_mem_nil
  · rw [headerManagers] at hn
    by_cases h : headers.isEmpty = true
    · rw [if_pos h] at hn
      exact absurd hn List.not_mem_nil
    · rw [if_neg h, List.mem_singleton] at hn
      exact ⟨_, hn, rfl, rfl⟩
  · exact absurd hn List.not_mem_nil
  · exact absurd hn List.not_mem_nil

/-- What the collector filter adds are collectors, and leaves. -/
theorem collectors_leaf (spec : FilterSpec) :
    ∀ n ∈ collectors d spec, ∃ e, n = .leaf e ∧ e.kind = .resultCollector
      ∧ e.name = ElementKind.resultCollector.defaultName := by
  intro n hn
  rcases spec with _ | headers | fallback | filename
  · exact absurd hn List.not_mem_nil
  · exact absurd hn List.not_mem_nil
  · exact absurd hn List.not_mem_nil
  · rw [collectors, List.mem_singleton] at hn
    rcases filename with _ | f
    · exact ⟨_, hn, rfl, rfl⟩
    · exact ⟨_, hn, rfl, rfl⟩

/-- The insertion at the scope is always possible: there is a node, and the place
in front of its children is one. -/
theorem insert_scope (n c : Node) :
    Tree.insert (.ofNode n) n.scope 0 c
      = (.ok (n.scope.child 0), .ofNode (n.modify (precede [c]) n.scope)) := by
  obtain ⟨m, hm, -⟩ := n.get?_scope
  refine Tree.insert_eq_ok_iff.mpr ⟨m, hm, Nat.zero_le _, rfl, ?_⟩
  have hsame : precede [c] m = m.withChildren (m.children.insertIdx 0 c) := rfl
  exact Tree.modify_congr (t := .ofNode n) hm hsame

/-- The header filter puts its manager in front of the children of the scope. -/
theorem value_headerDefaults_ofNode (headers : Filter.Headers) (n : Node) :
    ((Filter.headerDefaults headers).apply d w (.ofNode n)).value
      = .ofNode (filtered d w (.headerDefaults headers) n) := by
  show (if headers.isEmpty then pure _ else _ : Logged Tree).value = _
  rw [filtered, headerManagers]
  by_cases h : headers.isEmpty = true
  · have hnone : precede [] = id := by
      funext k
      exact k.mk_element_children
    rw [if_pos h, if_pos h, hnone, Node.modify_id]
    rfl
  · rw [if_neg h, if_neg h, Filter.scope?_ofNode]
    dsimp only
    rw [Logged.value_bind, insert_scope]
    rfl

/-- One filter acts on the root; there is nothing it does to the empty tree. -/
theorem value_apply_eq (spec : FilterSpec) (t : Tree) :
    (spec.build.apply d w t).value = ⟨t.root.map (filtered d w spec)⟩ := by
  obtain ⟨root⟩ := t
  rcases spec with _ | headers | fallback | filename
  · rcases root with _ | n
    · rfl
    · rfl
  · rcases root with _ | n
    · show (if headers.isEmpty then pure _ else _ : Logged Tree).value = _
      by_cases h : headers.isEmpty = true
      · rw [if_pos h]
        rfl
      · rw [if_neg h]
        rfl
    · exact value_headerDefaults_ofNode d w headers n
  · exact Filter.value_thinkTime fallback d w ⟨root⟩
  · rcases root with _ | n
    · rfl
    · rfl

/-! ## Chains -/

/-- What a chain makes of a tree, filter by filter. -/
theorem value_chain_eq (specs : List FilterSpec) (t : Tree) :
    (Filter.chain (specs.map FilterSpec.build) d w t).value
      = ⟨t.root.map fun n => specs.foldl (fun n spec => filtered d w spec n) n⟩ := by
  induction specs generalizing t with
  | nil =>
    have hid : (fun n : Node => ([] : List FilterSpec).foldl
        (fun n spec => filtered d w spec n) n) = id := rfl
    rw [hid, Option.map_id]
    rfl
  | cons spec specs ih =>
    -- what the chain notes after a step does not show in the tree
    show (Filter.chain (specs.map FilterSpec.build) d w (spec.build.apply d w t).value).value = _
    rw [value_apply_eq, ih, Option.map_map]
    rfl

/-- No filter changes the element at the root. -/
theorem element_filtered (spec : FilterSpec) (n : Node) :
    (filtered d w spec n).element = n.element := by
  rcases spec with _ | headers | fallback | filename
  · rfl
  · rw [filtered]
    rcases n.scope with _ | ⟨i, p⟩
    · rfl
    · rfl
  · obtain ⟨e, cs⟩ := n
    rfl
  · rfl

end Filtered

end Plan

end LoadTest
