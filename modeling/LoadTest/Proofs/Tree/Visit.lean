/-
A visit in place meets the tree that it leaves.

A visitor may do anything to the node it is handed: put another element in it,
and add, drop, move or replace what is below it. The visit then goes on in the
answer, and it does not come back. So when it ends, it has handed out exactly the
paths of the tree that is left, in their order, and each element of that tree is
the one the visitor has put there, however the tree looked before.

A call is what a visitor is handed (`Visitor.Call`). The calls of a visit are
written down beside it (`Visitor.calls`), those of a visit that does not end
included, and `Visitor.node_recorded` says that they are what the visitor itself
would have kept a record of. The statements about visits are each a statement
about subtrees, by induction on the list of them, and one about nodes, by
induction on the levels.

An endless visit goes down endlessly, since there are finitely many children at
every node. The number of nodes bounds how far a visit can go down if no call
makes its node larger; it is the calls that are made that count here, and not
what the visitor would do elsewhere.
-/
import LoadTest.Proofs.Tree.Preorder
import LoadTest.Tree.Visit

set_option autoImplicit false

namespace LoadTest

open Traversal (under)

namespace Visitor

/-! ## Calls -/

/-- What a visitor is handed. -/
structure Call (σ : Type) where
  path : Path
  node : Node
  state : σ

variable {σ : Type}

/-- The node with which a visitor answers a call. -/
def answer (f : Visitor σ) (c : Call σ) : Node := (f c.path c.node c.state).1

/-- The visitor that does the same and keeps a record of its calls. -/
def recorded (f : Visitor σ) : Visitor (σ × List (Call σ)) := fun p n s =>
  ((f p n s.1).1, (f p n s.1).2, s.2 ++ [⟨p, n, s.1⟩])

/-- The calls in a visit of subtrees that are numbered from `i`. The next subtree
is reached if the visit of the first one ends. -/
def childrenCalls (visit : Path → Node → σ → Option (Node × σ))
    (calls : Path → Node → σ → List (Call σ)) (p : Path) : Nat → List Node → σ → List (Call σ)
  | _, [], _ => []
  | i, n :: ns, s =>
    calls (Path.child p i) n s
      ++ (visit (Path.child p i) n s).elim [] fun r => childrenCalls visit calls p (i + 1) ns r.2

/-- The calls in a visit of a node, down to so many levels. -/
def calls (f : Visitor σ) : Nat → Path → Node → σ → List (Call σ)
  | 0, _, _, _ => []
  | levels + 1, p, n, s =>
    ⟨p, n, s⟩
      :: childrenCalls (node f levels) (calls f levels) p 0 (f p n s).1.children (f p n s).2

/-! ## Visits that end -/

section Steps

variable {visit : Path → Node → σ → Option (Node × σ)}

/-- A visit of children succeeds if that of the first does and then, from the state that
it leaves, that of the others. -/
theorem children_cons_eq_some {p : Path} {i : Nat} {n : Node} {ns ns' : List Node} {s s' : σ} :
    children visit p i (n :: ns) s = some (ns', s') ↔
      ∃ m s₁ ms, visit (Path.child p i) n s = some (m, s₁)
        ∧ children visit p (i + 1) ns s₁ = some (ms, s') ∧ ns' = m :: ms := by
  rw [children]
  rcases visit (Path.child p i) n s with _ | ⟨m, s₁⟩
  · simp
  · rcases h : children visit p (i + 1) ns s₁ with _ | ⟨ms, s₂⟩
    · simp [h]
    · simp [h, and_comm, eq_comm]

/-- The visitor is called first, and then the children of its answer are visited. -/
theorem node_succ_eq_some {f : Visitor σ} {levels : Nat} {p : Path} {n n' : Node} {s s' : σ} :
    node f (levels + 1) p n s = some (n', s') ↔
      ∃ cs, children (node f levels) p 0 (f p n s).1.children (f p n s).2 = some (cs, s')
        ∧ n' = (f p n s).1.withChildren cs := by
  rw [node]
  rcases children (node f levels) p 0 (f p n s).1.children (f p n s).2 with _ | ⟨cs, s₁⟩
  · simp
  · simp [and_comm, eq_comm]

/-- More levels do no harm: what ends, ends in the same way. -/
theorem children_mono {visit' : Path → Node → σ → Option (Node × σ)}
    (hvisit : ∀ p n s r, visit p n s = some r → visit' p n s = some r) {p : Path} {i : Nat}
    {ns : List Node} {s : σ} {r : List Node × σ} (h : children visit p i ns s = some r) :
    children visit' p i ns s = some r := by
  induction ns generalizing i s r with
  | nil => exact h
  | cons n ns ih =>
    obtain ⟨m, s₁, ms, hn, hns, hr⟩ := children_cons_eq_some.mp h
    exact children_cons_eq_some.mpr ⟨m, s₁, ms, hvisit _ _ _ _ hn, ih hns, hr⟩

/-- A visit that succeeds within some levels succeeds within more, with the same result. -/
theorem node_mono {f : Visitor σ} {levels more : Nat} (hle : levels ≤ more) {p : Path} {n : Node}
    {s : σ} {r : Node × σ} (h : node f levels p n s = some r) : node f more p n s = some r := by
  induction levels generalizing more p n s r with
  | zero => cases h
  | succ levels ih =>
    obtain ⟨k, rfl⟩ : ∃ k, more = k + 1 := ⟨more - 1, by omega⟩
    obtain ⟨cs, hcs, hr⟩ := node_succ_eq_some.mp h
    refine node_succ_eq_some.mpr ⟨cs, ?_, hr⟩
    exact children_mono (fun p n s r hn => ih (Nat.le_of_succ_le_succ hle) hn) hcs

end Steps

/-! ## The calls are those that are made -/

/-- If each child is visited with its calls put on record, so are the children in a row. -/
theorem children_recorded {visit : Path → Node → σ → Option (Node × σ)}
    {visit' : Path → Node → σ × List (Call σ) → Option (Node × σ × List (Call σ))}
    {calls : Path → Node → σ → List (Call σ)}
    (hvisit : ∀ p n s log, visit' p n (s, log)
      = (visit p n s).map fun r => (r.1, r.2, log ++ calls p n s))
    (p : Path) (i : Nat) (ns : List Node) (s : σ) (log : List (Call σ)) :
    children visit' p i ns (s, log)
      = (children visit p i ns s).map fun r =>
        (r.1, r.2, log ++ childrenCalls visit calls p i ns s) := by
  induction ns generalizing i s log with
  | nil => simp [children, childrenCalls]
  | cons n ns ih =>
    rw [children, children, hvisit]
    rcases hn : visit (Path.child p i) n s with _ | ⟨m, s₁⟩
    · rfl
    · -- the record goes on where the visit of the first subtree has left it
      simp only [Option.map_some, ih]
      rcases children visit p (i + 1) ns s₁ with _ | ⟨ms, s₂⟩
      · rfl
      · simp only [Option.map_some, childrenCalls, hn, Option.elim_some, List.append_assoc]

/-- Keeping a record does not change the visit, and the record of a visit that
ends has become longer by its calls. -/
theorem node_recorded (f : Visitor σ) (levels : Nat) (p : Path) (n : Node) (s : σ)
    (log : List (Call σ)) :
    node f.recorded levels p n (s, log)
      = (node f levels p n s).map fun r => (r.1, r.2, log ++ f.calls levels p n s) := by
  induction levels generalizing p n s log with
  | zero => rfl
  | succ levels ih =>
    rw [node, node, recorded]
    simp only [children_recorded ih]
    rcases children (node f levels) p 0 (f p n s).1.children (f p n s).2 with _ | ⟨cs, s₁⟩
    · rfl
    · simp only [Option.map_some, calls, List.append_assoc, List.singleton_append]

/-! ## What the calls say about the tree that is left -/

/-- A call by its path and by the element that the visitor puts there. -/
def placed (f : Visitor σ) (c : Call σ) : Path × Element := (c.path, (f.answer c).element)

/-- A node by its path and its element, seen from the node that `p` leads down
from. -/
def standing (p : Path) (v : Path × Node) : Path × Element := (p ++ v.1, v.2.element)

/-- The nodes below a child stand behind its step. -/
theorem standing_child (p : Path) (i : Nat) : standing (Path.child p i) = standing p ∘ under [i] := by
  funext v
  rw [Function.comp_apply, standing, standing, under, Path.child, List.append_assoc]

/-- If the calls at each child are at the nodes that it leaves, the calls at the
children are at the nodes that they leave. -/
theorem map_childrenCalls {visit : Path → Node → σ → Option (Node × σ)}
    {calls : Path → Node → σ → List (Call σ)} {g : Call σ → Path × Element}
    (hvisit : ∀ p n s n' s', visit p n s = some (n', s') →
      (calls p n s).map g = n'.preorder.map (standing p))
    {p : Path} {i : Nat} {ns ns' : List Node} {s s' : σ}
    (h : children visit p i ns s = some (ns', s')) :
    (childrenCalls visit calls p i ns s).map g
      = (Node.forestPreorder i ns').map (standing p) := by
  induction ns generalizing i ns' s with
  | nil =>
    obtain ⟨rfl, -⟩ := Prod.mk.inj (Option.some.inj h)
    rfl
  | cons n ns ih =>
    obtain ⟨m, s₁, ms, hn, hns, rfl⟩ := children_cons_eq_some.mp h
    rw [childrenCalls, hn, Option.elim_some, List.map_append, hvisit _ _ _ _ _ hn, ih hns,
      Node.forestPreorder, List.map_append, List.map_map, standing_child]

/-- The paths that are handed out are those of the node that is left, in preorder,
and what the visitor has put at each of them is still there. -/
theorem map_calls {f : Visitor σ} {levels : Nat} {p : Path} {n n' : Node} {s s' : σ}
    (h : node f levels p n s = some (n', s')) :
    (f.calls levels p n s).map f.placed = n'.preorder.map (standing p) := by
  induction levels generalizing p n n' s s' with
  | zero => cases h
  | succ levels ih =>
    obtain ⟨cs, hcs, rfl⟩ := node_succ_eq_some.mp h
    -- the visit of the children has no part in the element, and it is their last change
    have hself : f.placed ⟨p, n, s⟩ = standing p ([], .mk (f p n s).1.element cs) := by
      rw [standing, List.append_nil]
      rfl
    rw [calls, List.map_cons, map_childrenCalls (fun _ _ _ _ _ => ih) hcs, hself, Node.withChildren,
      Node.preorder, List.map_cons]

/-! ## Visits under which no node grows -/

/-- Children can be visited if every node that has no more nodes than they have together
can. -/
theorem exists_children {visit : Path → Node → σ → Option (Node × σ)}
    {calls : Path → Node → σ → List (Call σ)} {ok : Call σ → Prop} {bound : Nat}
    (hvisit : ∀ p n s, n.nodeCount ≤ bound → (∀ c ∈ calls p n s, ok c) → ∃ r, visit p n s = some r)
    {p : Path} {i : Nat} {ns : List Node} {s : σ} (hns : Node.forestCount ns ≤ bound)
    (hok : ∀ c ∈ childrenCalls visit calls p i ns s, ok c) :
    ∃ r, children visit p i ns s = some r := by
  induction ns generalizing i s with
  | nil => exact ⟨_, rfl⟩
  | cons n ns ih =>
    rw [Node.forestCount] at hns
    rw [childrenCalls] at hok
    obtain ⟨hfirst, hrest⟩ := List.forall_mem_append.mp hok
    obtain ⟨⟨m, s₁⟩, hn⟩ := hvisit (Path.child p i) n s (by omega) hfirst
    rw [hn, Option.elim_some] at hrest
    obtain ⟨⟨ms, s₂⟩, hms⟩ := ih (by omega) hrest
    exact ⟨_, children_cons_eq_some.mpr ⟨m, s₁, ms, hn, hms, rfl⟩⟩

/-- A node has more nodes than its children together, so each level of the visit
has fewer nodes left to go down to. -/
theorem exists_node {f : Visitor σ} {levels : Nat} {p : Path} {n : Node} {s : σ}
    (hn : n.nodeCount ≤ levels)
    (hcalls : ∀ c ∈ f.calls levels p n s, (f.answer c).nodeCount ≤ c.node.nodeCount) :
    ∃ r, node f levels p n s = some r := by
  induction levels generalizing p n s with
  | zero =>
    have hpos := n.nodeCount_pos
    omega
  | succ levels ih =>
    obtain ⟨hself, hbelow⟩ := List.forall_mem_cons.mp hcalls
    have hanswer := (f p n s).1.nodeCount_eq
    have hself' : (f p n s).1.nodeCount ≤ n.nodeCount := hself
    obtain ⟨⟨cs, s'⟩, hcs⟩ := exists_children (fun _ _ _ => ih) (by omega) hbelow
    exact ⟨_, node_succ_eq_some.mpr ⟨cs, hcs, rfl⟩⟩

/-! ## Visits that leave the children alone -/

/-- Children keep their paths, and those of the nodes below them, if each child keeps
those below it. -/
theorem paths_children {visit : Path → Node → σ → Option (Node × σ)}
    {calls : Path → Node → σ → List (Call σ)} {ok : Call σ → Prop}
    (hvisit : ∀ p n s n' s', visit p n s = some (n', s') → (∀ c ∈ calls p n s, ok c) →
      n'.preorder.map Prod.fst = n.preorder.map Prod.fst)
    {p : Path} {i : Nat} {ns ns' : List Node} {s s' : σ}
    (h : children visit p i ns s = some (ns', s'))
    (hok : ∀ c ∈ childrenCalls visit calls p i ns s, ok c) :
    (Node.forestPreorder i ns').map Prod.fst = (Node.forestPreorder i ns).map Prod.fst := by
  induction ns generalizing i ns' s with
  | nil =>
    obtain ⟨rfl, -⟩ := Prod.mk.inj (Option.some.inj h)
    rfl
  | cons n ns ih =>
    obtain ⟨m, s₁, ms, hn, hns, rfl⟩ := children_cons_eq_some.mp h
    rw [childrenCalls, hn, Option.elim_some] at hok
    obtain ⟨hfirst, hrest⟩ := List.forall_mem_append.mp hok
    have hunder : Prod.fst ∘ under [i] = ([i] ++ ·) ∘ Prod.fst := rfl
    rw [Node.forestPreorder, Node.forestPreorder, List.map_append, List.map_append, List.map_map,
      List.map_map, hunder, ← List.map_map, ← List.map_map, hvisit _ _ _ _ _ hn hfirst,
      ih hns hrest]

/-- A visitor that leaves all children in place leaves all paths. -/
theorem paths_node {f : Visitor σ} {levels : Nat} {p : Path} {n n' : Node} {s s' : σ}
    (h : node f levels p n s = some (n', s'))
    (hcalls : ∀ c ∈ f.calls levels p n s, (f.answer c).children = c.node.children) :
    n'.preorder.map Prod.fst = n.preorder.map Prod.fst := by
  induction levels generalizing p n n' s s' with
  | zero => cases h
  | succ levels ih =>
    obtain ⟨cs, hcs, rfl⟩ := node_succ_eq_some.mp h
    obtain ⟨hself, hbelow⟩ := List.forall_mem_cons.mp hcalls
    have hpaths := paths_children (fun _ _ _ _ _ => ih) hcs hbelow
    have hself' : (f p n s).1.children = n.children := hself
    obtain ⟨e, ds⟩ := n
    rw [hself'] at hpaths
    rw [Node.withChildren, Node.preorder, Node.preorder, List.map_cons, List.map_cons, hpaths]
    rfl

end Visitor

/-! ## Visits of trees -/

namespace Tree

open Visitor (Call)

variable {σ : Type}

/-- The calls in a visit of a tree, down to so many levels. -/
def callsWithin (levels : Nat) (t : Tree) (f : Visitor σ) (s : σ) : List (Call σ) :=
  t.root.elim [] fun n => f.calls levels Path.root n s

/-- The visit of a tree is the visit of its root. -/
theorem visitWithin_eq_some {f : Visitor σ} {levels : Nat} {n : Node} {t' : Tree} {s s' : σ} :
    (ofNode n).visitWithin levels f s = some (t', s') ↔
      ∃ n', f.node levels Path.root n s = some (n', s') ∧ t' = ofNode n' := by
  show (f.node levels Path.root n s).map _ = _ ↔ _
  rcases f.node levels Path.root n s with _ | ⟨m, s₁⟩
  · simp
  · simp [and_comm, eq_comm]

/-- More levels do not change a visit that succeeds. -/
theorem visitWithin_mono {f : Visitor σ} {levels more : Nat} (hle : levels ≤ more) {t : Tree}
    {s : σ} {r : Tree × σ} (h : t.visitWithin levels f s = some r) :
    t.visitWithin more f s = some r := by
  obtain ⟨root⟩ := t
  rcases root with _ | n
  · exact h
  · obtain ⟨n', hn, hr⟩ := visitWithin_eq_some.mp h
    exact visitWithin_eq_some.mpr ⟨n', Visitor.node_mono hle hn, hr⟩

/-- Keeping a record does not change the visit of a tree. -/
theorem visitWithin_recorded (f : Visitor σ) (levels : Nat) (t : Tree) (s : σ) :
    t.visitWithin levels f.recorded (s, [])
      = (t.visitWithin levels f s).map fun r => (r.1, r.2, t.callsWithin levels f s) := by
  obtain ⟨root⟩ := t
  rcases root with _ | n
  · rfl
  · show (f.recorded.node levels Path.root n (s, [])).map _
      = ((f.node levels Path.root n s).map _).map _
    rw [Visitor.node_recorded, Option.map_map, Option.map_map]
    rfl

/-- The calls, by their paths and by what the visitor puts there, are the nodes of
the tree that is left. -/
theorem map_callsWithin {f : Visitor σ} {levels : Nat} {t t' : Tree} {s s' : σ}
    (h : t.visitWithin levels f s = some (t', s')) :
    (t.callsWithin levels f s).map f.placed = t'.depthFirst.map (Visitor.standing Path.root) := by
  obtain ⟨root⟩ := t
  rcases root with _ | n
  · obtain ⟨rfl, -⟩ := Prod.mk.inj (Option.some.inj h)
    rw [depthFirst_eq]
    rfl
  · obtain ⟨n', hn, rfl⟩ := visitWithin_eq_some.mp h
    rw [depthFirst_eq]
    exact Visitor.map_calls hn

/-- The paths of the calls are those of the tree that the visit leaves, in the order of
a traversal. -/
theorem paths_callsWithin {f : Visitor σ} {levels : Nat} {t t' : Tree} {s s' : σ}
    (h : t.visitWithin levels f s = some (t', s')) :
    (t.callsWithin levels f s).map Call.path = t'.depthFirst.map Prod.fst := by
  have hfst := congrArg (List.map Prod.fst) (map_callsWithin h)
  rwa [List.map_map, List.map_map] at hfst

/-- A visit under which no node grows ends, with as many levels as there are nodes. -/
theorem exists_visitWithin {f : Visitor σ} {levels : Nat} {t : Tree} {s : σ}
    (ht : t.nodeCount ≤ levels)
    (hcalls : ∀ c ∈ t.callsWithin levels f s, (f.answer c).nodeCount ≤ c.node.nodeCount) :
    ∃ t' s', t.visitWithin levels f s = some (t', s') := by
  obtain ⟨root⟩ := t
  rcases root with _ | n
  · exact ⟨_, _, rfl⟩
  · obtain ⟨⟨n', s'⟩, hn⟩ := Visitor.exists_node ht hcalls
    exact ⟨_, s', visitWithin_eq_some.mpr ⟨n', hn, rfl⟩⟩

/-- A visitor that leaves all children in place leaves the paths of the tree. -/
theorem paths_visitWithin {f : Visitor σ} {levels : Nat} {t t' : Tree} {s s' : σ}
    (h : t.visitWithin levels f s = some (t', s'))
    (hcalls : ∀ c ∈ t.callsWithin levels f s, (f.answer c).children = c.node.children) :
    t'.depthFirst.map Prod.fst = t.depthFirst.map Prod.fst := by
  rw [depthFirst_eq, depthFirst_eq]
  obtain ⟨root⟩ := t
  rcases root with _ | n
  · obtain ⟨rfl, -⟩ := Prod.mk.inj (Option.some.inj h)
    rfl
  · obtain ⟨n', hn, rfl⟩ := visitWithin_eq_some.mp h
    exact Visitor.paths_node hn hcalls

/-- A visit that ends would end in the same way if it could go down further. It
has handed out the paths of the tree that it leaves, each once and in the order of
a traversal of that tree, and each element there is the one that the visitor has
put in its place. A visit ends if no node becomes larger in the visitor's hands;
as many levels are then enough as there are nodes. If the visitor leaves children
alone, the paths are also those of the tree before the visit. -/
theorem visit_meets_what_it_leaves (f : Visitor σ) (levels : Nat) (t : Tree) (s : σ) :
    let made := t.callsWithin levels f s
    (∀ t' s', t.visitWithin levels f s = some (t', s') →
      (∀ more, levels ≤ more → t.visitWithin more f s = some (t', s'))
      ∧ t.visitWithin levels f.recorded (s, []) = some (t', s', made)
      ∧ made.map Call.path = t'.depthFirst.map Prod.fst
      ∧ (made.map Call.path).Pairwise (fun p q => p.cmp q = .lt)
      ∧ ∀ c ∈ made, t'.element? c.path = some (f.answer c).element)
    ∧ (t.nodeCount ≤ levels → (∀ c ∈ made, (f.answer c).nodeCount ≤ c.node.nodeCount) →
      ∃ t' s', t.visitWithin levels f s = some (t', s'))
    ∧ (t.nodeCount ≤ levels → (∀ c ∈ made, (f.answer c).children = c.node.children) →
      (∃ t' s', t.visitWithin levels f s = some (t', s'))
      ∧ made.map Call.path = t.depthFirst.map Prod.fst) := by
  intro made
  refine ⟨?_, exists_visitWithin, ?_⟩
  · intro t' s' h
    have hpaths : made.map Call.path = t'.depthFirst.map Prod.fst := paths_callsWithin h
    refine ⟨fun more hle => visitWithin_mono hle h, ?_, hpaths, ?_, ?_⟩
    · rw [visitWithin_recorded, h]
      rfl
    · simp only [hpaths, Path.cmp_eq_lt_iff]
      exact t'.pairwise_depthFirst
    · intro c hc
      have hplaced : f.placed c ∈ t'.depthFirst.map (Visitor.standing Path.root) := by
        rw [← map_callsWithin h]
        exact List.mem_map_of_mem hc
      obtain ⟨⟨q, m⟩, hm, hqm⟩ := List.mem_map.mp hplaced
      obtain ⟨hq, helement⟩ := Prod.mk.inj hqm
      have hq' : q = c.path := hq
      rw [element?, ← hq', mem_depthFirst.mp hm, ← helement]
      rfl
  · intro ht hcalls
    -- a node that keeps its children keeps their number
    have hcount : ∀ c ∈ made, (f.answer c).nodeCount ≤ c.node.nodeCount := by
      intro c hc
      rw [Node.nodeCount_eq, Node.nodeCount_eq, hcalls c hc]
    obtain ⟨t', s', h⟩ := exists_visitWithin ht hcount
    exact ⟨⟨t', s', h⟩, (paths_callsWithin h).trans (paths_visitWithin h hcalls)⟩

/-- A visitor that takes the first child away from a thread group, turns the others
round and puts a cookie manager behind them. It names every other node after the
number of nodes it has met before. -/
def reshuffle : Visitor Nat := fun _ n k =>
  (match n.element.kind with
    | .threadGroup => n.withChildren (n.children.tail.reverse ++ [.leaf (.new .cookieManager)])
    | _ => n.withElement (n.element.withName (Decimal.text k)),
  k + 1)

/-- A visitor that only names nodes. -/
def renumber : Visitor Nat := fun _ n k =>
  (n.withElement (n.element.withName (Decimal.text k)), k + 1)

/-- The sampler has moved behind the header manager by the time that the visit
comes to the children of the thread group, and it is met there with what is below
it; the cookie manager is met last. Where nodes are only named, the visit meets
them where they were. -/
theorem reshuffled_group_is_met :
    let assertion := Node.leaf (.new .responseAssertion)
    let t := ofNode (.mk (.new .threadGroup)
      [assertion, .mk (.new .httpSampler) [assertion], .leaf (.new .headerManager)])
    (∃ t' s', t.visitWithin 5 reshuffle 0 = some (t', s')
      ∧ t'.depthFirst.map Prod.fst = [[], [0], [1], [1, 0], [2]])
    ∧ (t.callsWithin 5 renumber 0).map Call.path = t.depthFirst.map Prod.fst := by
  intro assertion t
  obtain ⟨hmeets, hends, -⟩ := visit_meets_what_it_leaves reshuffle 5 t 0
  obtain ⟨-, -, hkept⟩ := visit_meets_what_it_leaves renumber 5 t 0
  obtain ⟨t', s', h⟩ := hends (by decide) (by decide)
  obtain ⟨-, -, hpaths, -⟩ := hmeets t' s' h
  refine ⟨⟨t', s', h, hpaths.symm.trans (by decide)⟩, (hkept (by decide) ?_).2⟩
  intro c _
  rfl

end Tree

end LoadTest
