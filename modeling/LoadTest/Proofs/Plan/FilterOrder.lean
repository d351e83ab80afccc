/-
Filters of different kinds can be applied in either order.

There are three pairs to look at, since the filter that does nothing commutes
with every filter. Header managers go into the scope, and neither timers nor
collectors change which node that is or how a path leads to it: they go behind
all the children that there are. Header managers in turn are no samplers, so the
samplers keep their numbers. That much holds of every tree
(`filtered_header_time`, `filtered_header_collector`).

Timers and collectors are both put behind the children of their node. They meet
where the root is a sampler, and there the order shows; under any other root they
do not (`filtered_time_collector`). Filters leave the element of the root as it is, so a
chain keeps that condition.

From pairs to chains it is a fact about folds: two lists that agree on the
elements of every kind, in their order, can be brought into one another by
exchanging neighbours of different kinds.
-/
import LoadTest.Proofs.Plan.Additions

set_option autoImplicit false

namespace LoadTest

/-! ## Folds of steps that commute -/

section Fold

variable {α β κ : Type} [DecidableEq κ] {key : α → κ} {step : β → α → β} {inv : β → Prop}

omit [DecidableEq κ] in
/-- Moving a step in front of steps of other kinds. -/
theorem foldl_move_to_front (hinv : ∀ s x, inv s → inv (step s x))
    (hcomm : ∀ s x y, inv s → key x ≠ key y → step (step s x) y = step (step s y) x)
    {before behind : List α} {x : α} (hx : ∀ y ∈ before, key y ≠ key x) {s : β} (hs : inv s) :
    (before ++ x :: behind).foldl step s = (before ++ behind).foldl step (step s x) := by
  induction before generalizing s with
  | nil => rfl
  | cons y before ih =>
    have hy := hx y List.mem_cons_self
    have hbefore : ∀ z ∈ before, key z ≠ key x := fun z hz => hx z (List.mem_cons_of_mem _ hz)
    rw [List.cons_append, List.cons_append, List.foldl_cons, List.foldl_cons,
      ih hbefore (hinv s y hs), hcomm s y x hs hy]

/-- Lists with the same elements of every kind, in the same order, fold to the
same. Where the first list has its first element, the second has it behind
elements of other kinds only. -/
theorem foldl_eq_of_filter_eq (hinv : ∀ s x, inv s → inv (step s x))
    (hcomm : ∀ s x y, inv s → key x ≠ key y → step (step s x) y = step (step s y) x)
    {xs ys : List α} (h : ∀ k, xs.filter (key · == k) = ys.filter (key · == k)) {s : β}
    (hs : inv s) : xs.foldl step s = ys.foldl step s := by
  induction xs generalizing ys s with
  | nil =>
    rcases ys with _ | ⟨y, ys⟩
    · rfl
    · have hy := h (key y)
      rw [List.filter_nil, List.filter_cons_of_pos (by simp)] at hy
      cases hy
  | cons x xs ih =>
    have hx := h (key x)
    rw [List.filter_cons_of_pos (by simp)] at hx
    obtain ⟨before, behind, rfl, hbefore, -, hbehind⟩ := List.filter_eq_cons_iff.mp hx.symm
    have hother : ∀ y ∈ before, key y ≠ key x := by
      intro y hy
      simpa using hbefore y hy
    rw [foldl_move_to_front hinv hcomm hother hs, List.foldl_cons]
    refine ih ?_ (hinv s x hs)
    intro k
    have hk := h k
    rw [List.filter_append] at hk ⊢
    by_cases hxk : key x = k
    · -- of this kind there is nothing in front of `x`
      subst hxk
      have hnone : before.filter (key · == key x) = [] := List.filter_eq_nil_iff.mpr hbefore
      rw [hnone, List.nil_append, hbehind]
    · have hxk' : ¬ (key x == k) = true := by simpa using hxk
      have hdrop : ∀ zs : List α, (x :: zs).filter (key · == k) = zs.filter (key · == k) :=
        fun zs => List.filter_cons_of_neg hxk'
      rwa [hdrop, hdrop] at hk

/-- A change in the front part leaves the back part as it is. -/
theorem modify_append_left {i : Nat} {l : List α} (h : i < l.length) (r : List α) (f : α → α) :
    (l ++ r).modify i f = l.modify i f ++ r := by
  induction l generalizing i with
  | nil => exact absurd h (Nat.not_lt_zero i)
  | cons a l ih =>
    cases i with
    | zero => rfl
    | succ i =>
      rw [List.length_cons, Nat.succ_lt_succ_iff] at h
      rw [List.cons_append, List.modify_succ_cons, ih h, List.modify_succ_cons, List.cons_append]

end Fold

/-! ## Timers beside other changes -/

namespace Filter

section Timers

variable (fallback : Option ThinkTime) (d : ElementDefaults) (w : Workload)

/-- What is due to a sampler are timers, and leaves. -/
theorem dueTimers_leaf (k : Nat) (e : Element) :
    ∀ n ∈ dueTimers fallback d w k e, ∃ e', n = .leaf e' ∧ e'.kind = .gaussianRandomTimer := by
  intro n hn
  obtain ⟨pause, rfl⟩ := exists_eq_timer fallback d w hn
  exact ⟨_, rfl, rfl⟩

/-- Timers go behind everything else, so the first thread group stays where it
is. -/
theorem firstGroup?_timedNode (k : Nat) (n : Node) :
    (timedNode fallback d w k n).firstGroup? = n.firstGroup? := by
  induction n generalizing k with
  | mk e cs ih =>
    have hforest : ∀ i k, Node.forestGroup? i (timedForest fallback d w k cs)
        = Node.forestGroup? i cs := by
      induction cs with
      | nil => exact fun _ _ => rfl
      | cons c cs ihcs =>
        intro i k
        have hcs := ihcs fun c' hc' => ih c' (List.mem_cons_of_mem _ hc')
        rw [timedForest, Node.forestGroup?_cons, Node.forestGroup?_cons,
          ih c List.mem_cons_self, hcs]
    have htimers : ∀ i, Node.forestGroup? i (dueTimers fallback d w k e) = none := by
      refine Node.forestGroup?_leaves ?_
      intro n hn
      obtain ⟨e', rfl, he'⟩ := dueTimers_leaf fallback d w k e n hn
      exact ⟨e', rfl, by rw [he']; decide⟩
    rw [timedNode, Node.firstGroup?_mk, Node.firstGroup?_mk, Node.forestGroup?_append, hforest,
      htimers, Option.or_none]

/-! A change at a path that adds no sampler does not interfere with timers: it
leaves the numbers of the samplers as they are. -/

/-- Changing one child changes the number of samplers only if it changes that of the
child. -/
theorem forestSamplers_modify {cs : List Node} {i : Nat} {c : Node} {f : Node → Node}
    (hc : cs[i]? = some c) (hf : samplerCount (f c) = samplerCount c) :
    forestSamplers (cs.modify i f) = forestSamplers cs := by
  induction cs generalizing i with
  | nil => cases hc
  | cons n ns ih =>
    cases i with
    | zero =>
      obtain rfl : n = c := by simpa using hc
      rw [List.modify_zero_cons, forestSamplers, forestSamplers, hf]
    | succ i =>
      rw [List.modify_succ_cons, forestSamplers, forestSamplers, ih hc]

/-- A change of one child that neither adds samplers nor minds timers can be made before
timing or after it. -/
theorem timedForest_modify {cs : List Node} {i : Nat} {c : Node} {f : Node → Node}
    (hc : cs[i]? = some c) (hf : samplerCount (f c) = samplerCount c)
    (htimed : ∀ k, timedNode fallback d w k (f c) = f (timedNode fallback d w k c)) (k : Nat) :
    timedForest fallback d w k (cs.modify i f) = (timedForest fallback d w k cs).modify i f := by
  induction cs generalizing i k with
  | nil => cases hc
  | cons n ns ih =>
    cases i with
    | zero =>
      obtain rfl : n = c := by simpa using hc
      rw [List.modify_zero_cons, timedForest, timedForest, List.modify_zero_cons, htimed, hf]
    | succ i =>
      rw [List.modify_succ_cons, timedForest, timedForest, List.modify_succ_cons, ih hc]

/-- Changing a node below changes the number of samplers only if it changes that of the
node. -/
theorem samplerCount_modify {p : Path} {n m : Node} {f : Node → Node} (hm : n.get? p = some m)
    (hf : samplerCount (f m) = samplerCount m) : samplerCount (n.modify f p) = samplerCount n := by
  induction p generalizing n with
  | nil =>
    obtain rfl : n = m := by simpa using hm
    exact hf
  | cons i p ih =>
    obtain ⟨e, cs⟩ := n
    rw [Node.get?_cons, Node.children_mk, Option.bind_eq_bind, Option.bind_eq_some_iff] at hm
    obtain ⟨c, hc, hm⟩ := hm
    rw [Node.modify, Node.withChildren, Node.element_mk, Node.children_mk, samplerCount,
      samplerCount, forestSamplers_modify hc (ih hm)]

/-- A change below that neither adds samplers nor minds timers can be made before timing
or after it. -/
theorem timedNode_modify {p : Path} {n m : Node} {f : Node → Node} (hm : n.get? p = some m)
    (hf : samplerCount (f m) = samplerCount m)
    (htimed : ∀ k, timedNode fallback d w k (f m) = f (timedNode fallback d w k m)) (k : Nat) :
    timedNode fallback d w k (n.modify f p) = (timedNode fallback d w k n).modify f p := by
  induction p generalizing n k with
  | nil =>
    obtain rfl : n = m := by simpa using hm
    exact htimed k
  | cons i p ih =>
    obtain ⟨e, cs⟩ := n
    rw [Node.get?_cons, Node.children_mk, Option.bind_eq_bind, Option.bind_eq_some_iff] at hm
    obtain ⟨c, hc, hm⟩ := hm
    have hforest := timedForest_modify fallback d w hc (samplerCount_modify hm hf)
      (fun k => ih hm k) (k + ownSampler e)
    have hi : i < (timedForest fallback d w (k + ownSampler e) cs).length := by
      rw [length_timedForest]
      exact (List.getElem?_eq_some_iff.mp hc).1
    -- the change is among the children that were there, in front of the timer of the node
    rw [Node.modify, Node.withChildren, Node.element_mk, Node.children_mk, timedNode, hforest,
      timedNode, Node.modify, Node.withChildren, Node.element_mk, Node.children_mk,
      modify_append_left hi]

end Timers

end Filter

/-! ## Pairs of filters -/

namespace Plan

open LoadTest.Filter (timedNode forestSamplers samplerCount)

section Pairs

variable (d : ElementDefaults) (w : Workload)

/-- Headers are put into the group without regard to timers, and timers below samplers
without regard to headers. -/
theorem filtered_header_time (headers : Filter.Headers) (fallback : Option ThinkTime) (n : Node) :
    filtered d w (.thinkTime fallback) (filtered d w (.headerDefaults headers) n)
      = filtered d w (.headerDefaults headers) (filtered d w (.thinkTime fallback) n) := by
  obtain ⟨m, hm, -⟩ := n.get?_scope
  have hscope : (timedNode fallback d w 0 n).scope = n.scope := by
    rw [Node.scope, Filter.firstGroup?_timedNode]
    rfl
  have hnone := forestSamplers_headerManagers d (.headerDefaults headers)
  -- header managers bring no samplers, and none of those behind them is renumbered
  have hcount : samplerCount (precede (headerManagers d (.headerDefaults headers)) m)
      = samplerCount m := by
    obtain ⟨e, cs⟩ := m
    rw [precede, Node.withChildren, Node.element_mk, Node.children_mk, samplerCount,
      Filter.forestSamplers_append, hnone, Nat.zero_add, samplerCount]
  have htimed : ∀ k, timedNode fallback d w k
        (precede (headerManagers d (.headerDefaults headers)) m)
      = precede (headerManagers d (.headerDefaults headers)) (timedNode fallback d w k m) := by
    intro k
    obtain ⟨e, cs⟩ := m
    rw [precede, precede, Node.withChildren, Node.element_mk, Node.children_mk, timedNode,
      timedNode, Filter.timedForest_append, Filter.timedForest_of_forestSamplers _ _ _ _ _ hnone,
      hnone, Nat.add_zero, Node.withChildren, Node.element_mk, Node.children_mk,
      List.append_assoc]
  rw [filtered, filtered, filtered, filtered, hscope]
  exact Filter.timedNode_modify fallback d w hm hcount htimed 0

/-- A collector goes behind the children of the root, so it does not get in the way of
the headers. -/
theorem filtered_header_collector (headers : Filter.Headers) (filename : Option String)
    (n : Node) :
    filtered d w (.resultCollector filename) (filtered d w (.headerDefaults headers) n)
      = filtered d w (.headerDefaults headers) (filtered d w (.resultCollector filename) n) := by
  obtain ⟨m, hm, -⟩ := n.get?_scope
  have hnone : ∀ i, Node.forestGroup? i (collectors d (.resultCollector filename)) = none := by
    refine Node.forestGroup?_leaves ?_
    intro c hc
    obtain ⟨e, rfl, he, -⟩ := collectors_leaf d _ c hc
    exact ⟨e, rfl, by rw [he]; decide⟩
  obtain ⟨e, cs⟩ := n
  have hscope : (Node.mk e (cs ++ collectors d (.resultCollector filename))).scope
      = (Node.mk e cs).scope := by
    rw [Node.scope, Node.scope, Node.firstGroup?_mk, Node.firstGroup?_mk,
      Node.forestGroup?_append, hnone, Option.or_none]
  rw [filtered, filtered, filtered, filtered, Node.withChildren, Node.withChildren,
    Node.element_mk, Node.children_mk, hscope]
  -- the collector is behind the children in any case, whether the scope is the root or below
  rcases hpath : (Node.mk e cs).scope with _ | ⟨i, p⟩
  · rw [Node.modify, Node.modify, precede, precede, Node.withChildren, Node.withChildren,
      Node.element_mk, Node.children_mk, Node.element_mk, Node.children_mk, Node.element_mk,
      Node.children_mk, List.append_assoc]
  · rw [hpath, Node.get?_cons, Node.children_mk, Option.bind_eq_bind,
      Option.bind_eq_some_iff] at hm
    obtain ⟨c, hc, -⟩ := hm
    have hi : i < cs.length := (List.getElem?_eq_some_iff.mp hc).1
    rw [Node.modify, Node.modify, Node.withChildren, Node.withChildren, Node.element_mk,
      Node.children_mk, Node.element_mk, Node.children_mk, Node.element_mk, Node.children_mk,
      modify_append_left hi]

/-- A collector is no sampler, so it is not timed. The root must be no sampler, or the
collector would stand on the wrong side of its timer. -/
theorem filtered_time_collector (fallback : Option ThinkTime) (filename : Option String) {n : Node}
    (hn : n.element.kind.isSampler = false) :
    filtered d w (.resultCollector filename) (filtered d w (.thinkTime fallback) n)
      = filtered d w (.thinkTime fallback) (filtered d w (.resultCollector filename) n) := by
  obtain ⟨e, cs⟩ := n
  have he : e.kind.isSampler = false := hn
  have hnone := forestSamplers_collectors d (.resultCollector filename)
  -- the root gets no timer, and the collector is no sampler
  rw [filtered, filtered, filtered, filtered, Node.withChildren, Node.withChildren,
    Node.element_mk, Node.children_mk, Filter.timedNode_of_not_sampler _ _ _ he,
    Filter.timedNode_of_not_sampler _ _ _ he, Filter.timedForest_append,
    Filter.timedForest_of_forestSamplers _ _ _ _ _ hnone, Node.element_mk, Node.children_mk]

/-- Filters of different kinds commute under a root that is no sampler. -/
theorem filtered_comm {a b : FilterSpec} (hab : a.build.name ≠ b.build.name) {n : Node}
    (hn : n.element.kind.isSampler = false) :
    filtered d w b (filtered d w a n) = filtered d w a (filtered d w b n) := by
  rcases a with _ | headers | fallback | filename
  · rfl
  · rcases b with _ | _ | fallback | filename
    · rfl
    · exact absurd rfl hab
    · exact filtered_header_time d w headers fallback n
    · exact filtered_header_collector d w headers filename n
  · rcases b with _ | headers | _ | filename
    · rfl
    · exact (filtered_header_time d w headers fallback n).symm
    · exact absurd rfl hab
    · exact filtered_time_collector d w fallback filename hn
  · rcases b with _ | headers | fallback | _
    · rfl
    · exact (filtered_header_collector d w headers filename n).symm
    · exact (filtered_time_collector d w fallback filename hn).symm
    · exact absurd rfl hab

end Pairs

/-! ## Chains -/

/-- Two filters whose effects on nodes commute can change places in a chain. -/
theorem value_chain_swap (d : ElementDefaults) (w : Workload) (a b : FilterSpec) (t : Tree)
    (hab : ∀ n, filtered d w b (filtered d w a n) = filtered d w a (filtered d w b n)) :
    (Filter.chain [a.build, b.build] d w t).value
      = (Filter.chain [b.build, a.build] d w t).value := by
  have hfirst := value_chain_eq d w [a, b] t
  have hsecond := value_chain_eq d w [b, a] t
  simp only [List.foldl_cons, List.foldl_nil, hab] at hfirst
  exact hfirst.trans hsecond.symm

/-- The root, if there is one, is no sampler. -/
def NoSamplerRoot (t : Tree) : Prop := ∀ n, t.root = some n → n.element.kind.isSampler = false

/-- The order of filters of different kinds does not matter. Chains that have the
same filters of every kind in the same order make the same of a tree that is
empty or whose root is no sampler, and the plans of a layout are such trees.
Filters for headers can be exchanged with those for think times and with result
collectors on every tree. -/
theorem filters_of_different_kinds_commute (d : ElementDefaults) (w : Workload) :
    (∀ (specs specs' : List FilterSpec) (t : Tree),
      (∀ name, specs.filter (·.build.name == name) = specs'.filter (·.build.name == name)) →
      NoSamplerRoot t →
      (Filter.chain (specs.map FilterSpec.build) d w t).value
        = (Filter.chain (specs'.map FilterSpec.build) d w t).value)
    ∧ (∀ (s : SingleGroup) (r : Registry) (t : Tree),
      Build.outcome (s.layout r d w) = .ok t → NoSamplerRoot t)
    ∧ (∀ headers fallback (t : Tree),
      (Filter.chain [.headerDefaults headers, .thinkTime fallback] d w t).value
        = (Filter.chain [.thinkTime fallback, .headerDefaults headers] d w t).value)
    ∧ ∀ headers filename (t : Tree),
      (Filter.chain [.headerDefaults headers, .resultCollector filename] d w t).value
        = (Filter.chain [.resultCollector filename, .headerDefaults headers] d w t).value := by
  refine ⟨?_, ?_, ?_, ?_⟩
  · intro specs specs' t h ht
    rw [value_chain_eq, value_chain_eq]
    obtain ⟨root⟩ := t
    rcases root with _ | n
    · rfl
    · have hkept : ∀ (n : Node) (spec : FilterSpec), n.element.kind.isSampler = false →
          (filtered d w spec n).element.kind.isSampler = false := by
        intro n spec hn
        rw [element_filtered]
        exact hn
      have hcomm : ∀ (n : Node) (a b : FilterSpec), n.element.kind.isSampler = false →
          a.build.name ≠ b.build.name →
          filtered d w b (filtered d w a n) = filtered d w a (filtered d w b n) :=
        fun n a b hn hab => filtered_comm d w hab hn
      exact congrArg Tree.ofNode (foldl_eq_of_filter_eq hkept hcomm h (ht n rfl))
  · intro s r t ht n hn
    rw [SingleGroup.outcome_layout] at ht
    rcases hfragments : Build.outcome (r.fragments d w.requests) with e | ns
    · rw [hfragments] at ht
      cases ht
    · rw [hfragments] at ht
      cases ht
      cases hn
      rw [Node.element_mk, SingleGroup.kind_rename]
      rfl
  · intro headers fallback t
    exact value_chain_swap d w (.headerDefaults headers) (.thinkTime fallback) t
      (filtered_header_time d w headers fallback)
  · intro headers filename t
    exact value_chain_swap d w (.headerDefaults headers) (.resultCollector filename) t
      (filtered_header_collector d w headers filename)

/-- Headers, a timer, a collector and another timer, and the same with the headers
last and the collector first, over a thread group with one sampler. -/
theorem moved_filters_agree :
    let headers := FilterSpec.headerDefaults (.ofList [("Accept", "*/*")])
    let timer := FilterSpec.thinkTime (some ⟨500, 50⟩)
    let other := FilterSpec.thinkTime (some ⟨20, 0⟩)
    let collector := FilterSpec.resultCollector none
    let specs := [headers, timer, collector, other]
    let specs' := [collector, timer, other, headers]
    let t := Tree.ofNode (.mk (.new .testPlan)
      [.mk (.new .threadGroup) [.leaf (.new .soapSampler)]])
    (∀ name, specs.filter (·.build.name == name) = specs'.filter (·.build.name == name))
    ∧ NoSamplerRoot t
    ∧ (Filter.chain (specs.map FilterSpec.build) .empty default t).value
      = (Filter.chain (specs'.map FilterSpec.build) .empty default t).value := by
  intro headers timer other collector specs specs' t
  have hkinds : ∀ name,
      specs.filter (·.build.name == name) = specs'.filter (·.build.name == name) := by
    intro name
    by_cases hheaders : headers.build.name = name
    · subst hheaders
      decide
    · by_cases hcollector : collector.build.name = name
      · subst hcollector
        decide
      · by_cases htimer : timer.build.name = name
        · subst htimer
          decide
        · have hother : ¬ other.build.name = name := htimer
          simp [specs, specs', hheaders, hcollector, htimer, hother]
  have hroot : NoSamplerRoot t := by
    rintro n ⟨⟩
    rfl
  exact ⟨hkinds, hroot,
    (filters_of_different_kinds_commute .empty default).1 specs specs' t hkinds hroot⟩

end Plan

end LoadTest
