/-
Every element that is created is in the plan, once.

The journal notes a kind whenever an element of it is created, and a finished
tree has a kind at every node. The two lists are the same up to order, and that
is shown part by part: a fragment consists of what has been created for it, the
scaffolding is created when it is put around the fragments, and a filter puts
into the tree exactly what it has created (`kinds_stage`). For a chain the
permutations are joined, since the journals are.

A build that fails has made fragments and nothing else. It fails before the
scaffolding, and the request that makes it fail has had nothing created for it.
-/
import LoadTest.Proofs.Plan.Run
import LoadTest.Proofs.Tree.Elements

set_option autoImplicit false

namespace LoadTest

open Build

/-! ## The kinds in a tree -/

namespace Node

/-- The kinds of a node and of everything below it, in the order of a visit. -/
def kinds (n : Node) : List ElementKind := n.preorder.map fun v => v.2.element.kind

/-- The kinds of a node are its own and, behind it, those of its children in order. -/
theorem kinds_mk (e : Element) (cs : List Node) :
    (mk e cs).kinds = e.kind :: cs.flatMap kinds :=
  map_preorder_mk (fun n => n.element.kind) e cs

@[simp] theorem kinds_leaf (e : Element) : (leaf e).kinds = [e.kind] := by
  rw [leaf, kinds_mk, List.flatMap_nil]

end Node

namespace Tree

/-- The kinds of all nodes, in the order of a visit. -/
def kinds (t : Tree) : List ElementKind := t.depthFirst.map fun v => v.2.element.kind

theorem kinds_eq (t : Tree) : t.kinds = t.root.elim [] Node.kinds := by
  obtain ⟨root⟩ := t
  rw [kinds, depthFirst_eq]
  rcases root with _ | n
  · rfl
  · rfl

theorem length_kinds (t : Tree) : t.kinds.length = t.nodeCount := by
  rw [kinds, List.length_map, length_depthFirst]

/-- A search by kind finds the kind as often as it stands in the list. -/
theorem length_findKind (t : Tree) (k : ElementKind) : (t.findKind k).length = t.kinds.count k := by
  rw [findKind, findPaths, kinds, List.length_map, List.count, List.countP_map,
    List.countP_eq_length_filter]
  rfl

end Tree

/-! ## Growth, kind by kind -/

/-- What is added to two parts is added to the whole. -/
theorem perm_append_of_perm {α : Type} {as as' bs bs' xs ys : List α}
    (ha : as'.Perm (as ++ xs)) (hb : bs'.Perm (bs ++ ys)) :
    (as' ++ bs').Perm (as ++ bs ++ (xs ++ ys)) := by
  refine (ha.append hb).trans ?_
  rw [List.append_assoc, List.append_assoc]
  refine List.Perm.append_left as ?_
  rw [← List.append_assoc, ← List.append_assoc]
  exact List.perm_append_comm.append_right ys

namespace Node

/-- Without their order, the kinds are those of the elements. -/
theorem coe_kinds (n : Node) : (↑n.kinds : Multiset ElementKind) = n.elements.map (·.kind) := by
  rw [elements, Multiset.map_coe, List.map_map]
  rfl

/-- What is added at a path is added to the node. -/
theorem kinds_modify {p : Path} {n m : Node} {f : Node → Node} {added : List ElementKind}
    (hm : n.get? p = some m) (hf : (f m).kinds.Perm (m.kinds ++ added)) :
    (n.modify f p).kinds.Perm (n.kinds ++ added) := by
  -- the account of elements at a path, seen by kind
  have hbalance := congrArg (Multiset.map (·.kind)) (elements_modify f hm)
  rw [Multiset.map_add, Multiset.map_add, ← coe_kinds, ← coe_kinds, ← coe_kinds, ← coe_kinds,
    Multiset.coe_eq_coe.mpr hf, ← Multiset.coe_add, add_comm (m.kinds : Multiset ElementKind),
    ← add_assoc] at hbalance
  rw [← Multiset.coe_eq_coe, ← Multiset.coe_add]
  exact add_right_cancel hbalance

end Node

/-! ## Fragments -/

/-- A transformer of a kind's own, or one that takes any request and creates a
result collector for it, which is the whole fragment. -/
inductive RequestTransformer.Sparing : RequestTransformer → Prop where
  | own (k : RequestKind) : Sparing (.forKind k)
  | collector (t : RequestTransformer)
    (h : ∀ d q, ∃ e : Element, e.kind = .resultCollector
      ∧ outcome (t.transform d q) = .ok (.leaf e)
      ∧ (journal (t.transform d q)).created = [.resultCollector]) : Sparing t

/-- A transformer of which it is known what it creates is one of which it is known what
it makes. -/
theorem RequestTransformer.Sparing.known {t : RequestTransformer} (ht : t.Sparing) : t.Known := by
  rcases ht with k | ⟨_, h⟩
  · exact .own k
  · refine .acceptsAny t fun d q => ?_
    obtain ⟨e, -, hout, -⟩ := h d q
    exact ⟨.leaf e, hout⟩

namespace Fragment

/-- A sampler has an assertion element below it if the request asserts anything. -/
theorem kinds_withAssertion (sampler : Element) (d : ElementDefaults) (q : Request) :
    (withAssertion sampler d q).value.kinds
      = sampler.kind :: if q.assertions.isEmpty then [] else [.responseAssertion] := by
  show (Node.mk sampler ((assertion? d q).value.toList.map Node.leaf)).kinds = _
  rw [Node.kinds_mk, assertion?]
  by_cases h : q.assertions.isEmpty = true
  · rw [if_pos h, if_pos h]
    rfl
  · rw [if_neg h, if_neg h]
    rfl

/-- A built-in fragment is a sampler, and an assertion element if the request asserts
anything. -/
theorem kinds_forKind {d : ElementDefaults} {q : Request} {n : Node}
    (h : outcome ((RequestTransformer.forKind q.kind).transform d q) = .ok n) :
    n.kinds = samplerKind q.kind :: if q.assertions.isEmpty then [] else [.responseAssertion] := by
  rcases q with r | r
  · obtain rfl : (ofSoap d r).value = n := Except.ok.inj h
    refine (kinds_withAssertion _ d (.soap r)).trans ?_
    rw [(applyProperties_kind_name (d.create .soapSampler).value r.id r.properties soapKeys).1]
    rfl
  · obtain rfl : (ofHttp d r).value = n := Except.ok.inj h
    refine (kinds_withAssertion _ d (.http r)).trans ?_
    rw [(applyParameters_kind_name _ _).1, (applyProperties_kind_name
      (ensureMethod (d.create .httpSampler).value) r.id r.properties httpKeys).1, kind_ensureMethod]
    rfl

/-- A built-in transformer creates a sampler, and an assertion element if the request
asserts anything. -/
theorem created_forKind (d : ElementDefaults) (q : Request) :
    (journal ((RequestTransformer.forKind q.kind).transform d q)).created
      = samplerKind q.kind :: if q.assertions.isEmpty then [] else [.responseAssertion] := by
  rw [journal_forKind]
  show samplerKind q.kind :: Journal.created (_ ++ _) = _
  rw [Journal.created_append, Journal.created_map_event, List.nil_append]
  by_cases h : q.assertions.isEmpty = true
  · rw [if_pos h, if_pos h]
    rfl
  · rw [if_neg h, if_neg h]
    rfl

end Fragment

namespace Registry

variable {r : Registry} {d : ElementDefaults}

/-- What is created for a request is its fragment, and that holds neither
scaffolding nor anything that belongs to a filter alone. -/
theorem created_transform_ok (hr : ∀ k t, r.get? k = some t → t.Sparing) {q : Request} {n : Node}
    (h : outcome (r.transform d q) = .ok n) :
    (journal (r.transform d q)).created = n.kinds
    ∧ ∀ k ∈ n.kinds, k ∈ [ElementKind.soapSampler, .httpSampler, .responseAssertion,
      .resultCollector] := by
  rcases ht : r.get? q.kind with _ | t
  · rw [transform, ht] at h
    cases h
  · have hcreated : (journal (r.transform d q)).created = (journal (t.transform d q)).created := by
      rw [journal_transform ht]
      rfl
    rw [outcome_transform ht] at h
    rw [hcreated]
    rcases hr q.kind t ht with k | ⟨_, hcollector⟩
    · -- a kind's own transformer has succeeded, so the request is of the kind
      by_cases hk : k = q.kind
      · subst hk
        rw [Fragment.created_forKind, Fragment.kinds_forKind h]
        refine ⟨rfl, ?_⟩
        rcases q.kind with _ | _ <;> rcases q.assertions.isEmpty with _ | _ <;> decide
      · rw [forKind_rejects d hk] at h
        cases h
    · obtain ⟨e, hkind, hout, hcollector⟩ := hcollector d q
      rw [hout] at h
      rw [hcollector, ← Except.ok.inj h, Node.kinds_leaf, hkind]
      exact ⟨rfl, by decide⟩

/-- Nothing is created for a request that is refused. -/
theorem created_transform_error {q : Request} {e : TransformError} (h : r.Refuses q e) :
    (journal (r.transform d q)).created = [] := by
  rcases h with ht | ⟨k, ht, hk⟩
  · rw [journal_transform_of_none ht]
    rfl
  · -- the hand-over is noted, but that is an event
    rw [journal_transform ht, Fragment.journal_forKind_of_ne d hk]
    rfl

/-- What is created for requests is what their fragments consist of, in the same order,
and none of it belongs to the scaffolding. -/
theorem created_fragments (hr : ∀ k t, r.get? k = some t → t.Sparing) {qs : List Request}
    {ns : List Node} (h : List.Forall₂ (fun q n => outcome (r.transform d q) = .ok n) qs ns) :
    Journal.created (qs.flatMap fun q => journal (r.transform d q)) = ns.flatMap Node.kinds
    ∧ ∀ k ∈ ns.flatMap Node.kinds, k ∈ [ElementKind.soapSampler, .httpSampler,
      .responseAssertion, .resultCollector] := by
  induction h with
  | nil => exact ⟨rfl, fun k hk => absurd hk List.not_mem_nil⟩
  | cons hq _ ih =>
    obtain ⟨hcreated, hkinds⟩ := created_transform_ok hr hq
    rw [List.flatMap_cons, List.flatMap_cons, Journal.created_append, hcreated, ih.1]
    refine ⟨rfl, fun k hk => ?_⟩
    rcases List.mem_append.mp hk with hn | hns
    · exact hkinds k hn
    · exact ih.2 k hns

end Registry

/-! ## Filters -/

namespace Plan

open LoadTest.Filter (timedNode timedForest dueTimers)
open Node (kinds_mk)

section Stages

variable (d : ElementDefaults) (w : Workload)

/-- Pauses add timers to a tree, and nothing else. -/
theorem kinds_timedNode (fallback : Option ThinkTime) (k : Nat) (n : Node) :
    ∃ j, (timedNode fallback d w k n).kinds.Perm
      (n.kinds ++ List.replicate j .gaussianRandomTimer) := by
  induction n generalizing k with
  | mk e cs ih =>
    have hforest : ∀ k, ∃ j, ((timedForest fallback d w k cs).flatMap Node.kinds).Perm
        (cs.flatMap Node.kinds ++ List.replicate j .gaussianRandomTimer) := by
      induction cs with
      | nil => exact fun _ => ⟨0, .nil⟩
      | cons c cs ihcs =>
        intro k
        obtain ⟨j, hc⟩ := ih c List.mem_cons_self k
        obtain ⟨j', hcs⟩ := ihcs (fun c' hc' => ih c' (List.mem_cons_of_mem _ hc'))
          (k + Filter.samplerCount c)
        refine ⟨j + j', ?_⟩
        rw [timedForest, List.flatMap_cons, List.flatMap_cons, ← List.replicate_append_replicate]
        exact perm_append_of_perm hc hcs
    -- the node's own timer, if it gets one, stands behind its children
    have hdue : ∃ j, (dueTimers fallback d w k e).flatMap Node.kinds
        = List.replicate j .gaussianRandomTimer := by
      rw [dueTimers]
      by_cases he : e.kind.isSampler = true
      · rw [if_pos he]
        rcases Filter.pauseOf? fallback w k e.name with _ | pause
        · exact ⟨0, rfl⟩
        · exact ⟨1, rfl⟩
      · rw [if_neg he]
        exact ⟨0, rfl⟩
    obtain ⟨j, hcs⟩ := hforest (k + Filter.ownSampler e)
    obtain ⟨j', hdue⟩ := hdue
    refine ⟨j + j', ?_⟩
    rw [timedNode, kinds_mk, kinds_mk, List.flatMap_append, hdue, List.cons_append,
      ← List.replicate_append_replicate, ← List.append_assoc]
    exact (hcs.append_right _).cons e.kind

/-- The think-time filter creates what it adds, timer by timer. -/
theorem created_thinkTime (fallback : Option ThinkTime) (t : Tree) :
    ((Filter.thinkTime fallback).apply d w t).value.kinds.Perm
      (t.kinds ++ ((Filter.thinkTime fallback).apply d w t).journal.created) := by
  obtain ⟨j, hcount, hjournal⟩ := Filter.journal_thinkTime fallback d w t
  have hcreated : ((Filter.thinkTime fallback).apply d w t).journal.created
      = List.replicate j .gaussianRandomTimer := by
    rw [hjournal, Journal.created_append, Journal.created]
    simp [Journal.created]
  have hkinds : ∃ i, ((Filter.thinkTime fallback).apply d w t).value.kinds.Perm
      (t.kinds ++ List.replicate i .gaussianRandomTimer) := by
    rw [Filter.value_thinkTime, Tree.kinds_eq, Tree.kinds_eq]
    rcases t.root with _ | n
    · exact ⟨0, .nil⟩
    · exact kinds_timedNode d w fallback 0 n
  -- as many timers are noted as there are new nodes, and the new nodes are timers
  obtain ⟨i, hkinds⟩ := hkinds
  have hlen := hkinds.length_eq
  rw [List.length_append, List.length_replicate, Tree.length_kinds, Tree.length_kinds,
    hcount] at hlen
  obtain rfl : i = j := by omega
  rw [hcreated]
  exact hkinds

/-- The header filter creates the one manager that it adds, or nothing. -/
theorem created_headerDefaults (headers : Filter.Headers) (t : Tree) :
    ((Filter.headerDefaults headers).apply d w t).value.kinds.Perm
      (t.kinds ++ ((Filter.headerDefaults headers).apply d w t).journal.created) := by
  have hvalue := value_apply_eq d w (.headerDefaults headers) t
  rw [FilterSpec.build] at hvalue
  rw [hvalue, journal_headerDefaults, Tree.kinds_eq, Tree.kinds_eq]
  obtain ⟨root⟩ := t
  rcases root with _ | n
  · simp [Tree.isEmpty, Journal.created]
  · obtain ⟨m, hm, -⟩ := n.get?_scope
    -- the header manager goes in front of what is in the scope, which is the same up to order
    refine Node.kinds_modify hm ?_
    obtain ⟨e, cs⟩ := m
    rw [precede, Node.withChildren, Node.element_mk, Node.children_mk, kinds_mk, kinds_mk,
      List.flatMap_append, List.cons_append, headerManagers]
    by_cases h : headers.isEmpty = true
    · simp [h, Journal.created]
    · rw [Bool.not_eq_true] at h
      simp only [h, Tree.isEmpty, Option.isNone_some, Bool.or_self, Bool.false_eq_true, if_false,
        List.flatMap_singleton, Node.kinds_leaf]
      exact List.perm_append_comm.cons e.kind

/-- A leaf behind the children of the root adds its kind. -/
theorem kinds_pushed (e : Element) (n : Node) :
    (Tree.ofNode (n.pushChild (.leaf e))).kinds.Perm ((Tree.ofNode n).kinds ++ [e.kind]) := by
  obtain ⟨e', cs⟩ := n
  rw [Tree.kinds_eq, Tree.kinds_eq]
  show (Node.mk e' (cs ++ [.leaf e])).kinds.Perm ((Node.mk e' cs).kinds ++ [e.kind])
  rw [kinds_mk, kinds_mk, List.flatMap_append, List.flatMap_singleton, Node.kinds_leaf,
    List.cons_append]

/-- Whatever the filter, what it creates is what it adds to the tree. -/
theorem kinds_stage (stage : Stage) (t : Tree) :
    (stage.build.apply d w t).value.kinds.Perm
      (t.kinds ++ (stage.build.apply d w t).journal.created) := by
  rcases stage with (_ | headers | fallback | filename) | label
  · simp [Stage.build, FilterSpec.build, Filter.identity, Journal.created]
  · exact created_headerDefaults d w headers t
  · exact created_thinkTime d w fallback t
  · rw [Stage.build, FilterSpec.build, journal_resultCollector]
    obtain ⟨root⟩ := t
    rcases root with _ | n
    · rw [Tree.kinds_eq, Tree.kinds_eq]
      exact .nil
    · have h := kinds_pushed (Filter.applyFilename filename (d.newElement .resultCollector)) n
      rw [Filter.kind_applyFilename] at h
      exact h
  · rw [Stage.build, journal_recording]
    obtain ⟨root⟩ := t
    rcases root with _ | n
    · rw [Tree.kinds_eq, Tree.kinds_eq]
      exact .nil
    · exact kinds_pushed
        ((d.newElement .resultCollector).withName (Fixture.markerPrefix ++ label)) n

/-- Along a chain, what the filters create is what they add to the tree. -/
theorem kinds_chain (stages : List Stage) (t : Tree) :
    (Filter.chain (stages.map Stage.build) d w t).value.kinds.Perm
      (t.kinds ++ (Filter.chain (stages.map Stage.build) d w t).journal.created) := by
  induction stages generalizing t with
  | nil => simp [Filter.chain, Journal.created]
  | cons stage stages ih =>
    -- that a filter has been applied is noted as an event
    have hcreated : (Filter.chain ((stage :: stages).map Stage.build) d w t).journal.created
        = (stage.build.apply d w t).journal.created
          ++ (Filter.chain (stages.map Stage.build) d w
            (stage.build.apply d w t).value).journal.created := by
      rw [List.map_cons, Filter.journal_chain_cons, Journal.created_append]
      rfl
    -- what the rest of the chain adds goes behind what the first filter has added
    rw [hcreated, ← List.append_assoc]
    exact (ih _).trans ((kinds_stage d w stage t).append_right _)

end Stages

end Plan

/-! ## The whole run -/

namespace SingleGroup

variable {s : SingleGroup} {d : ElementDefaults} {w : Workload}

/-- The scaffolding is created when it is put around the fragments. -/
theorem kinds_plan (ns : List Node) :
    (s.plan d w ns).kinds.Perm (ns.flatMap Node.kinds ++ (s.assemble d w ns).journal.created) := by
  have hcreated : (s.assemble d w ns).journal.created
      = .testPlan :: .threadGroup :: (s.cookies d).flatMap Node.kinds := by
    rw [journal_assemble, cookies]
    by_cases h : s.cookieManager = true
    · simp only [h, if_true]
      rfl
    · rw [Bool.not_eq_true] at h
      simp only [h, Bool.false_eq_true, if_false]
      rfl
  have hkinds : (s.plan d w ns).kinds
      = .testPlan :: .threadGroup
        :: ((s.cookies d).flatMap Node.kinds ++ ns.flatMap Node.kinds) := by
    rw [Tree.kinds_eq, plan]
    show (Node.mk (s.rename w (d.newElement .testPlan)) [.mk _ (s.cookies d ++ ns)]).kinds = _
    rw [Node.kinds_mk, kind_rename, List.flatMap_singleton, Node.kinds_mk, List.flatMap_append]
    rfl
  have hswap : (.testPlan :: .threadGroup :: (s.cookies d).flatMap Node.kinds
      ++ ns.flatMap Node.kinds : List ElementKind).Perm
        (ns.flatMap Node.kinds ++ .testPlan :: .threadGroup :: (s.cookies d).flatMap Node.kinds) :=
    List.perm_append_comm
  rw [hkinds, hcreated]
  exact hswap

end SingleGroup

namespace Registry

variable {r : Registry} {d : ElementDefaults}

/-- Requests none of which fails have fragments. -/
theorem exists_fragments {qs : List Request}
    (h : ∀ q ∈ qs, ∀ e, outcome (r.transform d q) ≠ .error e) :
    ∃ ns, List.Forall₂ (fun q n => outcome (r.transform d q) = .ok n) qs ns := by
  rcases hns : outcome (r.fragments d qs) with e | ns
  · obtain ⟨q, hq, e', he'⟩ := (r.fragments_fails_iff d qs).mp ⟨e, hns⟩
    exact absurd he' (h q hq e')
  · exact ⟨ns, (r.fragments_ok_iff d qs ns).mp hns⟩

end Registry

namespace Plan

/-- The kinds of what has been created are the kinds of the plan. -/
theorem kinds_transform {s : SingleGroup} {r : Registry} {d : ElementDefaults} {w : Workload}
    (hr : ∀ k t, r.get? k = some t → t.Sparing) (filters : Option (List Stage)) {t : Tree}
    (h : outcome (transform s.layout r d (filters.map (·.map Stage.build)) w) = .ok t) :
    t.kinds.Perm
      (journal (transform s.layout r d (filters.map (·.map Stage.build)) w)).created := by
  have hstages : (filters.map (·.map Stage.build)).getD [] = (filters.getD []).map Stage.build :=
    Option.getD_map _ [] filters
  obtain ⟨core, hlayout, rfl⟩ := exists_layout_ok h
  obtain ⟨ns, hns, rfl⟩ := (s.layout_ok_iff r d w core).mp hlayout
  have hfragments := (r.created_fragments hr ((r.fragments_ok_iff d w.requests ns).mp hns)).1
  rw [journal_transform_ok hlayout, hstages, SingleGroup.journal_layout_ok hns,
    r.journal_fragments_ok hns]
  refine (kinds_chain d w (filters.getD []) (s.plan d w ns)).trans ?_
  show (_ ++ _ : List ElementKind).Perm (Journal.created (_ ++ _))
  -- what the run itself notes at its beginning and at its end are events
  rw [Journal.created_append, Journal.created_append, Journal.created_append, hfragments]
  show (_ ++ _ : List ElementKind).Perm (_ ++ (_ ++ []))
  rw [List.append_nil]
  exact (SingleGroup.kinds_plan ns).append_right _

/-- However a plan is built and filtered, every element that has been created is
in it, once: of every kind as many have been created as a search finds, and in
all as many as there are nodes. If the build fails, what has been created are the
fragments of the requests before the one that is refused; there is no
scaffolding, and the filters have left nothing, since the journal is the one of a
run without filters. -/
theorem created_elements_are_planted (s : SingleGroup) (r : Registry)
    (hr : ∀ k t, r.get? k = some t → t.Sparing) (d : ElementDefaults) (w : Workload)
    (filters : Option (List Stage)) :
    let run := transform s.layout r d (filters.map (·.map Stage.build)) w
    (∀ t, outcome run = .ok t →
      (∀ k, (journal run).created.count k = (t.findKind k).length)
      ∧ (journal run).created.length = t.nodeCount)
    ∧ ∀ e, outcome run = .error e →
      ∃ pre q post fragments, w.requests = pre ++ q :: post ∧ r.Refuses q e
        ∧ List.Forall₂ (fun q n => outcome (r.transform d q) = .ok n) pre fragments
        ∧ (∀ k, (journal run).created.count k
          = (fragments.map fun n => ((Tree.ofNode n).findKind k).length).sum)
        ∧ (∀ k ∈ [ElementKind.testPlan, .threadGroup, .cookieManager, .headerManager,
          .gaussianRandomTimer], (journal run).created.count k = 0)
        ∧ journal run = journal (transform s.layout r d none w) := by
  intro run
  constructor
  · intro t ht
    have hkinds := kinds_transform hr filters ht
    refine ⟨?_, ?_⟩
    · intro k
      rw [Tree.length_findKind, hkinds.count_eq]
    · rw [← Tree.length_kinds, hkinds.length_eq]
  · intro e he
    have hlayout := layout_error he
    have hns := (s.layout_error_iff r d w e).mp hlayout
    obtain ⟨pre, q, post, hsplit, hpre, hq⟩ := (r.fragments_error_iff d w.requests e).mp hns
    have hrefuses : r.Refuses q e :=
      (r.transform_error_iff (Registry.filled_iff.mpr fun k t ht => (hr k t ht).known) d q e).mp hq
    obtain ⟨fragments, hfragments⟩ := r.exists_fragments hpre
    -- the refused request is the last in the journal, and nothing was created for it
    have hcreated : (journal run).created = fragments.flatMap Node.kinds := by
      show Journal.created (journal (transform _ _ _ _ _)) = _
      rw [journal_transform_error hlayout, SingleGroup.journal_layout_error hns, hsplit,
        r.journal_fragments_error hpre hq]
      show Journal.created (List.flatMap _ _) = _
      rw [List.flatMap_append, List.flatMap_singleton, Journal.created_append,
        r.created_transform_error hrefuses, List.append_nil, (r.created_fragments hr hfragments).1]
    refine ⟨pre, q, post, fragments, hsplit, hrefuses, hfragments, ?_, ?_, ?_⟩
    · intro k
      rw [hcreated, List.count_flatMap]
      congr 1
      refine List.map_congr_left fun n _ => ?_
      rw [Tree.length_findKind, Tree.kinds_eq]
      rfl
    · intro k hk
      rw [hcreated, List.count_eq_zero]
      intro hmem
      have hfragment := (r.created_fragments hr hfragments).2 k hmem
      revert hk hfragment
      cases k <;> decide
    · exact (journal_transform_error hlayout _).trans (journal_transform_error hlayout none).symm

/-- A collector for every SOAP request and a sampler for the HTTP request, under
headers, a recorder, timers and a result collector; and the same without a
transformer of SOAP requests. -/
theorem mixed_registry_census :
    let r := Registry.empty.registerAll
      [(.soap, Fixture.markerTransformer .soap), (.http, .forKind .http)]
    let r' := Registry.empty.registerAll [(.http, .forKind .http)]
    let w : Workload := ⟨"w", [.http (.new "b"), .soap (.new "a")], none⟩
    let stages : List Stage := [.usual (.headerDefaults (.ofList [("Accept", "*/*")])),
      .recorder "seen", .usual (.thinkTime (some ⟨5, 1⟩)), .usual (.resultCollector none)]
    let run (r : Registry) :=
      transform SingleGroup.standard.layout r .empty (some (stages.map Stage.build)) w
    (∀ k t, r.get? k = some t → t.Sparing)
    ∧ (∀ k t, r'.get? k = some t → t.Sparing)
    ∧ (∃ t, outcome (run r) = .ok t ∧ (journal (run r)).created.length = t.nodeCount
      ∧ (journal (run r)).created.count .resultCollector = (t.findKind .resultCollector).length)
    ∧ outcome (run r') = .error (.unregisteredKind "a" .soap)
    ∧ (journal (run r')).created.count .threadGroup = 0 := by
  intro r r' w stages run
  have hr : ∀ k t, r.get? k = some t → t.Sparing := by
    rintro (_ | _) t ⟨⟩
    · exact .collector _ fun d q => ⟨_, rfl, rfl, rfl⟩
    · exact .own .http
  have hr' : ∀ k t, r'.get? k = some t → t.Sparing := by
    rintro (_ | _) t ⟨⟩
    exact .own .http
  have hok := created_elements_are_planted .standard r hr .empty w (some stages)
  have herror := created_elements_are_planted .standard r' hr' .empty w (some stages)
  have hrun : outcome (run r) = .ok _ := outcome_transform_ok rfl _
  have hrun' : outcome (run r') = .error (.unregisteredKind "a" .soap) :=
    outcome_transform_error rfl _
  obtain ⟨hcount, hlength⟩ := hok.1 _ hrun
  obtain ⟨-, -, -, -, -, -, -, -, hnone, -⟩ := herror.2 _ hrun'
  exact ⟨hr, hr', ⟨_, hrun, hlength, hcount .resultCollector⟩, hrun',
    hnone .threadGroup (by decide)⟩

end Plan

end LoadTest
