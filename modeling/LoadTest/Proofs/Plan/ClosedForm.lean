/-
The tree of a compiled plan, in closed form.

What a filter adds depends on its specification alone, and where it goes does
not depend on the filters before it: header managers are put in front of
everything in the thread group, timers behind the children of their sampler,
collectors behind the children of the plan. So the tree after any chain can be
written down with one list of nodes per specification (`finished`), and one step
of the chain is one more specification in the list (`value_apply`).

The step that needs an argument is the timers'. The filter finds the request of
a sampler by the sampler's number in the visit. Header and cookie managers,
assertions, timers and collectors are no samplers, so whatever has been added
before, the samplers' numbers are the requests' positions.
-/
import LoadTest.Plan.Compile
import LoadTest.Proofs.Filter.Timers
import LoadTest.Proofs.Plan.Fragment

set_option autoImplicit false

namespace LoadTest

/-- There are no samplers below a sampler. -/
theorem Fragment.IsSamplerOf.forestSamplers {q : Request} {n : Node} (hn : IsSamplerOf q n) :
    Filter.forestSamplers n.children = 0 := by
  rw [Filter.forestSamplers_eq_zero_iff]
  intro c hc
  obtain ⟨e, he, rfl⟩ := hn.children c hc
  exact Filter.samplerCount_leaf (by rw [he]; rfl)

/-! ## Settings and files -/

namespace ThreadGroup

/-- The element is another one set up as a thread group: it bears the name of the
group and holds its three settings, each as the number that it is. -/
structure IsSetUp (g : ThreadGroup) (before after : Element) : Prop where
  kind : after.kind = before.kind
  name : after.name = g.name
  threads : ∃ v : Int64, after.property? threadsKey = some (.integer v) ∧ v.toInt = g.threads.toNat
  rampUp : ∃ v : Int64, after.property? rampUpKey = some (.integer v) ∧ v.toInt = g.rampUp.toNat
  loops : ∃ v : Int64, after.property? loopsKey = some (.integer v) ∧ v.toInt = g.loops.toInt
  others : ∀ key, key ∉ [threadsKey, rampUpKey, loopsKey] →
    after.property? key = before.property? key

/-- An unsigned number of 32 bits is the same number with a sign and 64 bits. -/
theorem toInt_toInt64_toUInt64 (n : UInt32) : n.toUInt64.toInt64.toInt = n.toNat := by
  have h := n.toNat_lt
  have hbits : n.toUInt64.toInt64.toBitVec.toNat = n.toNat := by
    rw [UInt64.toBitVec_toInt64, UInt64.toNat_toBitVec, UInt32.toNat_toUInt64]
  rw [← hbits]
  exact BitVec.toInt_eq_toNat_of_lt (by omega)

/-- What is written onto a group sets it up. -/
theorem isSetUp_apply (g : ThreadGroup) (e : Element) : g.IsSetUp e (g.apply e) where
  kind := g.kind_apply e
  name := g.name_apply e
  threads := by
    have hloops : loopsKey ≠ threadsKey := by decide
    have hrampUp : rampUpKey ≠ threadsKey := by decide
    rw [property?_apply, if_neg hloops, if_neg hrampUp, if_pos rfl]
    exact ⟨_, rfl, toInt_toInt64_toUInt64 g.threads⟩
  rampUp := by
    have hloops : loopsKey ≠ rampUpKey := by decide
    rw [property?_apply, if_neg hloops, if_pos rfl]
    exact ⟨_, rfl, toInt_toInt64_toUInt64 g.rampUp⟩
  loops := by
    rw [property?_apply, if_pos rfl]
    exact ⟨_, rfl, g.loops.toInt_toInt64⟩
  others key hkey := by
    simp only [List.mem_cons, List.not_mem_nil, or_false, not_or] at hkey
    rw [property?_apply, if_neg (Ne.symm hkey.2.2), if_neg (Ne.symm hkey.2.1),
      if_neg (Ne.symm hkey.1)]

end ThreadGroup

namespace Filter

/-- The element is another one set up as a collector: it holds the name of the file
as text if there is one, and is otherwise as it was. -/
structure IsCollectorTo (filename : Option String) (before after : Element) : Prop where
  kind : after.kind = before.kind
  name : after.name = before.name
  file : ∀ f, filename = some f → after.property? filenameKey = some (.text f)
  others : ∀ key, filename = none ∨ key ≠ filenameKey →
    after.property? key = before.property? key

/-- What is written onto a collector makes it one to that file. -/
theorem isCollectorTo_applyFilename (filename : Option String) (e : Element) :
    IsCollectorTo filename e (applyFilename filename e) where
  kind := kind_applyFilename filename e
  name := name_applyFilename filename e
  file f hf := by
    rw [property?_applyFilename, if_pos rfl, hf]
    rfl
  others key hkey := by
    rw [property?_applyFilename]
    rcases hkey with rfl | hkey
    · exact ite_self _
    · rw [if_neg (Ne.symm hkey)]

end Filter

namespace Plan

open Build Fragment
open LoadTest.Filter (samplerCount forestSamplers timedNode timedForest dueTimers)

/-! ## The tree after a chain -/

section Finished

variable (d : ElementDefaults) (w : Workload)

/-- The header manager that a filter adds; none without headers. -/
def headerManagers : FilterSpec → List Node
  | .headerDefaults headers =>
    if headers.isEmpty then []
    else [.leaf ((d.newElement .headerManager).withProperty Filter.headersKey
      (.table headers.entries))]
  | _ => []

/-- The timer that a filter adds to the sampler of a request: that of the
request's pause, else the workload's, else the filter's. -/
def timers (q : Request) : FilterSpec → List Node
  | .thinkTime fallback =>
    ((q.thinkTime <|> w.thinkTime <|> fallback).map (Filter.timer d)).toList
  | _ => []

/-- The collector that a filter adds. -/
def collectors : FilterSpec → List Node
  | .resultCollector filename =>
    [.leaf (Filter.applyFilename filename (d.newElement .resultCollector))]
  | _ => []

/-- The sampler of a request after the filters. -/
def withTimers (specs : List FilterSpec) (q : Request) (n : Node) : Node :=
  .mk n.element (n.children ++ specs.flatMap (timers d w q))

/-- The plan of a workload after the filters. -/
def finished (s : SingleGroup) (fragments : List Node) (specs : List FilterSpec) : Tree :=
  .ofNode (.mk (s.rename w (d.newElement .testPlan))
    (.mk (s.group.apply (d.newElement .threadGroup))
        ((specs.flatMap (headerManagers d)).reverse
          ++ s.cookies d
          ++ List.zipWith (withTimers d w specs) w.requests fragments)
      :: specs.flatMap (collectors d)))

theorem finished_nil (s : SingleGroup) {fragments : List Node}
    (hlen : w.requests.length = fragments.length) :
    finished d w s fragments [] = s.plan d w fragments := by
  have hnone : ∀ q n, withTimers d w [] q n = n := by
    intro q n
    rw [withTimers, List.flatMap_nil, List.append_nil, Node.mk_element_children]
  have hzip : List.zipWith (withTimers d w []) w.requests fragments = fragments := by
    refine List.ext_getElem ?_ ?_
    · rw [List.length_zipWith]
      omega
    · intro i h₁ h₂
      rw [List.getElem_zipWith, hnone]
  rw [finished, hzip]
  rfl

/-! ## Header managers -/

/-- In a plan whose first child is a thread group, that is the scope. -/
theorem scope?_plan {plan group : Element} {cs rest : List Node}
    (hplan : plan.kind = .testPlan) (hgroup : group.kind = .threadGroup) :
    Filter.scope? (.ofNode (.mk plan (.mk group cs :: rest))) = some [0] := by
  have htraversal : Tree.depthFirst (.ofNode (.mk plan (.mk group cs :: rest)))
      = (Path.root, .mk plan (.mk group cs :: rest)) :: ([0], .mk group cs)
        :: Traversal.run (Traversal.childrenAt [0] (.mk group cs)
          ++ rest.mapIdx fun i c => (Path.child Path.root (i + 1), c)) := by
    -- the stack holds the plan, then its children with the thread group on top
    show Traversal.run [(Path.root, .mk plan (.mk group cs :: rest))] = _
    rw [Traversal.run_cons, Traversal.childrenAt, Node.children_mk, List.mapIdx_cons,
      List.append_nil, Traversal.run_cons]
    rfl
  have hfound : (Tree.findKind (.ofNode (.mk plan (.mk group cs :: rest))) .threadGroup).head?
      = some [0] := by
    rw [Tree.findKind, Tree.findPaths, htraversal, List.filter_cons_of_neg,
      List.filter_cons_of_pos, List.map_cons, List.head?_cons]
    · simp [hgroup]
    · simp [hplan]
  rw [Filter.scope?, hfound]
  rfl

/-- The header manager goes in front of everything that is in the thread group. -/
theorem value_headerDefaults (headers : Filter.Headers) {plan group : Element}
    {cs rest : List Node} (hplan : plan.kind = .testPlan) (hgroup : group.kind = .threadGroup) :
    ((Filter.headerDefaults headers).apply d w
        (.ofNode (.mk plan (.mk group cs :: rest)))).value
      = .ofNode
        (.mk plan (.mk group (headerManagers d (.headerDefaults headers) ++ cs) :: rest)) := by
  rw [headerManagers]
  show (if headers.isEmpty then pure _ else _ : Logged Tree).value = _
  by_cases h : headers.isEmpty = true
  · rw [if_pos h, if_pos h]
    rfl
  · rw [if_neg h, if_neg h, scope?_plan hplan hgroup]
    rfl

/-! ## Timers -/

/-- The numbers of samplers are the positions of requests, so the timer that is
due is that of the request. -/
theorem dueTimers_eq (fallback : Option ThinkTime) {q : Request} {e : Element} {k : Nat}
    (hq : w.requests[k]? = some q) (hkind : e.kind.isSampler = true) (hname : e.name = q.id) :
    dueTimers fallback d w k e = timers d w q (.thinkTime fallback) := by
  rw [dueTimers, if_pos hkind, hname, Filter.pauseOf?_eq (Filter.requestOf?_position hq), timers]

theorem forestSamplers_timers (q : Request) (spec : FilterSpec) :
    forestSamplers (timers d w q spec) = 0 := by
  rcases spec with _ | headers | fallback | filename
  · rfl
  · rfl
  · rw [timers]
    rcases (q.thinkTime <|> w.thinkTime <|> fallback) with _ | pause
    · rfl
    · rfl
  · rfl

/-- Below a fragment and the timers it has got there are no samplers. -/
theorem forestSamplers_below (specs : List FilterSpec) {q : Request} {n : Node}
    (hn : IsSamplerOf q n) :
    forestSamplers (n.children ++ specs.flatMap (timers d w q)) = 0 := by
  rw [Filter.forestSamplers_append, hn.forestSamplers,
    Filter.forestSamplers_flatMap (forestSamplers_timers d w q)]

/-- A sampler gets one more timer. -/
theorem timedNode_withTimers (fallback : Option ThinkTime) (specs : List FilterSpec) {q : Request}
    {n : Node} {k : Nat} (hq : w.requests[k]? = some q) (hn : IsSamplerOf q n) :
    timedNode fallback d w k (withTimers d w specs q n)
      = withTimers d w (specs ++ [.thinkTime fallback]) q n := by
  -- nothing below the sampler is changed, and its own timer goes behind the earlier ones
  rw [withTimers, timedNode,
    Filter.timedForest_of_forestSamplers _ _ _ _ _ (forestSamplers_below d w specs hn),
    dueTimers_eq d w fallback hq hn.kind hn.name, withTimers, List.flatMap_append,
    List.flatMap_singleton, List.append_assoc]

/-- A fragment has one sampler, whatever timers it has been given. -/
theorem samplerCount_withTimers (specs : List FilterSpec) {q : Request} {n : Node}
    (hn : IsSamplerOf q n) : samplerCount (withTimers d w specs q n) = 1 := by
  rw [withTimers, samplerCount, forestSamplers_below d w specs hn, Filter.ownSampler,
    if_pos hn.kind]

/-- Every sampler gets its timer: `done` are the requests whose samplers have
been met. -/
theorem timedForest_samplers (fallback : Option ThinkTime) (specs : List FilterSpec)
    {done rest : List Request} {ns : List Node} (hw : w.requests = done ++ rest)
    (hns : List.Forall₂ IsSamplerOf rest ns) :
    timedForest fallback d w done.length (List.zipWith (withTimers d w specs) rest ns)
      = List.zipWith (withTimers d w (specs ++ [.thinkTime fallback])) rest ns := by
  induction hns generalizing done with
  | nil => rfl
  | @cons q n rest ns hn hns ih =>
    -- the first of the rest stands at the position that the samplers met so far amount to
    have hq : w.requests[done.length]? = some q := by
      rw [hw, List.getElem?_append_right (Nat.le_refl _), Nat.sub_self, List.getElem?_cons_zero]
    have hw' : w.requests = (done ++ [q]) ++ rest := by
      rw [hw, List.append_assoc, List.singleton_append]
    have htail := ih hw'
    rw [List.length_append, List.length_singleton] at htail
    rw [List.zipWith_cons_cons, timedForest, timedNode_withTimers d w fallback specs hq hn,
      samplerCount_withTimers d w specs hn, htail, List.zipWith_cons_cons]

/-! ## One step -/

/-- One more filter, part by part. -/
theorem finished_append (s : SingleGroup) (fragments : List Node) (specs : List FilterSpec)
    (spec : FilterSpec) :
    finished d w s fragments (specs ++ [spec])
      = .ofNode (.mk (s.rename w (d.newElement .testPlan))
        (.mk (s.group.apply (d.newElement .threadGroup))
            ((headerManagers d spec).reverse ++ (specs.flatMap (headerManagers d)).reverse
              ++ s.cookies d
              ++ List.zipWith (withTimers d w (specs ++ [spec])) w.requests fragments)
          :: (specs.flatMap (collectors d) ++ collectors d spec))) := by
  rw [finished, List.flatMap_append, List.flatMap_append, List.flatMap_singleton,
    List.flatMap_singleton, List.reverse_append]

/-- Filters other than those for think times leave the samplers alone. -/
theorem withTimers_append (specs : List FilterSpec) {spec : FilterSpec}
    (hspec : ∀ q, timers d w q spec = []) :
    withTimers d w (specs ++ [spec]) = withTimers d w specs := by
  funext q n
  rw [withTimers, withTimers, List.flatMap_append, List.flatMap_singleton, hspec, List.append_nil]

theorem forestSamplers_cookies (s : SingleGroup) : forestSamplers (s.cookies d) = 0 := by
  rw [SingleGroup.cookies]
  by_cases h : s.cookieManager = true
  · rw [if_pos h]
    rfl
  · rw [if_neg h]
    rfl

theorem forestSamplers_headerManagers (spec : FilterSpec) :
    forestSamplers (headerManagers d spec) = 0 := by
  rcases spec with _ | headers | fallback | filename
  · rfl
  · rw [headerManagers]
    by_cases h : headers.isEmpty = true
    · rw [if_pos h]
      rfl
    · rw [if_neg h]
      rfl
  · rfl
  · rfl

theorem forestSamplers_collectors (spec : FilterSpec) :
    forestSamplers (collectors d spec) = 0 := by
  rcases spec with _ | headers | fallback | filename
  · rfl
  · rfl
  · rfl
  · rcases filename with _ | f <;> rfl

/-- The think-time filter finishes a tree by one more set of timers, those due to the
requests by position. -/
theorem value_thinkTime_finished (s : SingleGroup) {fragments : List Node}
    (hns : List.Forall₂ IsSamplerOf w.requests fragments) (specs : List FilterSpec)
    (fallback : Option ThinkTime) :
    ((Filter.thinkTime fallback).apply d w (finished d w s fragments specs)).value
      = finished d w s fragments (specs ++ [.thinkTime fallback]) := by
  have hplan : (s.rename w (d.newElement .testPlan)).kind.isSampler = false := by
    rw [SingleGroup.kind_rename]
    rfl
  have hgroup : (s.group.apply (d.newElement .threadGroup)).kind.isSampler = false := rfl
  have hheaders : forestSamplers (specs.flatMap (headerManagers d)) = 0 :=
    Filter.forestSamplers_flatMap (forestSamplers_headerManagers d) specs
  have hfront : forestSamplers ((specs.flatMap (headerManagers d)).reverse ++ s.cookies d) = 0 := by
    rw [Filter.forestSamplers_append, Filter.forestSamplers_reverse hheaders,
      forestSamplers_cookies]
  have hbeside : forestSamplers (specs.flatMap (collectors d)) = 0 :=
    Filter.forestSamplers_flatMap (forestSamplers_collectors d) specs
  have hdone : w.requests = [] ++ w.requests := rfl
  have hsamplers := timedForest_samplers d w fallback specs hdone hns
  rw [List.length_nil] at hsamplers
  -- down to the thread group; what stands beside it has no samplers
  rw [Filter.value_thinkTime, finished_append]
  show Tree.ofNode (timedNode fallback d w 0 _) = _
  rw [Filter.timedNode_of_not_sampler _ _ _ hplan, timedForest,
    Filter.timedForest_of_forestSamplers _ _ _ _ _ hbeside,
    Filter.timedNode_of_not_sampler _ _ _ hgroup, Filter.timedForest_append,
    Filter.timedForest_of_forestSamplers _ _ _ _ _ hfront, hfront, hsamplers]
  simp only [headerManagers, collectors, List.reverse_nil, List.nil_append, List.append_nil]

/-- One step of a chain adds what its specification says. -/
theorem value_apply (s : SingleGroup) {fragments : List Node}
    (hns : List.Forall₂ IsSamplerOf w.requests fragments) (specs : List FilterSpec)
    (spec : FilterSpec) :
    (spec.build.apply d w (finished d w s fragments specs)).value
      = finished d w s fragments (specs ++ [spec]) := by
  rcases spec with _ | headers | fallback | filename
  · rw [finished_append, withTimers_append d w specs fun _ => rfl]
    simp only [headerManagers, collectors, List.reverse_nil, List.nil_append, List.append_nil]
    rfl
  · have hplan : (s.rename w (d.newElement .testPlan)).kind = .testPlan := by
      rw [SingleGroup.kind_rename]
      rfl
    -- at most one node is added, so it does not matter that it is added in reverse
    have hsingle : (headerManagers d (.headerDefaults headers)).reverse
        = headerManagers d (.headerDefaults headers) := by
      rw [headerManagers]
      by_cases h : headers.isEmpty = true
      · rw [if_pos h, List.reverse_nil]
      · rw [if_neg h, List.reverse_singleton]
    rw [finished_append, withTimers_append d w specs fun _ => rfl, hsingle]
    refine (value_headerDefaults d w headers hplan rfl).trans ?_
    simp only [collectors, List.append_nil, List.append_assoc]
  · exact value_thinkTime_finished d w s hns specs fallback
  · rw [finished_append, withTimers_append d w specs fun _ => rfl]
    simp only [headerManagers, collectors, List.reverse_nil, List.nil_append]
    rfl

/-! ## Whole chains -/

/-- A chain adds what its specifications say, in their order. -/
theorem value_chain (s : SingleGroup) {fragments : List Node}
    (hns : List.Forall₂ IsSamplerOf w.requests fragments) (specs more : List FilterSpec) :
    (Filter.chain (more.map FilterSpec.build) d w (finished d w s fragments specs)).value
      = finished d w s fragments (specs ++ more) := by
  induction more generalizing specs with
  | nil =>
    rw [List.append_nil]
    rfl
  | cons spec more ih =>
    -- what the chain notes after a step does not show in the tree
    show (Filter.chain (more.map FilterSpec.build) d w
      (spec.build.apply d w (finished d w s fragments specs)).value).value = _
    rw [value_apply d w s hns, ih, List.append_assoc, List.singleton_append]

end Finished

/-! ## Compiling -/

/-- The name of the plan: the configured one, be it empty, else the workload's,
else the one that plans have by themselves. -/
def planName (c : PlanConfig) (w : Workload) : String :=
  c.planName.getD (if w.name.isEmpty then ElementKind.testPlan.defaultName else w.name)

/-- The plan is named after the settings, or else after the workload. -/
theorem rename_scaffold (c : PlanConfig) (w : Workload) :
    c.scaffold.rename w (c.defaults.newElement .testPlan)
      = (c.defaults.newElement .testPlan).withName (planName c w) := by
  rw [SingleGroup.rename, PlanConfig.scaffold, planName]
  rcases c.planName with _ | name
  · by_cases h : w.name.isEmpty = true
    · simp only [h, if_true, Option.getD_none]
      rfl
    · simp only [h, if_false, Option.getD_none, Bool.false_eq_true]
  · rfl

/-- Every request has its fragment in the standard registry. -/
theorem standard_fragments (d : ElementDefaults) (qs : List Request) :
    ∃ ns, List.Forall₂ (fun q n => outcome (Registry.standard.transform d q) = .ok n
      ∧ IsSamplerOf q n) qs ns := by
  choose fragment hfragment using standard_transform d
  refine ⟨qs.map fragment, ?_⟩
  rw [List.forall₂_map_right_iff, List.forall₂_same]
  exact fun q _ => hfragment q

/-- Behind the layout there are only filters, and they do not fail. -/
theorem outcome_transform (layout : Layout) (r : Registry) (d : ElementDefaults)
    (filters : List Filter) (w : Workload) :
    outcome (transform layout r d (some filters) w)
      = (outcome (layout r d w)).map fun t => (Filter.chain filters d w t).value := by
  rw [transform, outcome_bind, outcome_lift]
  show outcome (layout r d w >>= fun t => ExceptT.lift (finish d (some filters) w t)) = _
  rw [outcome_bind]
  rcases outcome (layout r d w) with e | t
  · rfl
  · rfl

/-- Compiling succeeds for every workload under every configuration, and this is
the tree: the plan with its thread group and the collectors in filter order; in
the thread group the header managers, the last filter's first, the cookie
manager if it is wanted, and one sampler per request in order; each sampler is
the request's fragment in the standard registry, with a timer for every filter
that knows a pause for the request. The thread group holds the configured
settings, a timer its pause and a collector the name of its file. -/
theorem compile_closed_form (c : PlanConfig) (w : Workload) :
    ∃ fragments,
      List.Forall₂ (fun q n => outcome (Registry.standard.transform c.defaults q) = .ok n
        ∧ IsSamplerOf q n) w.requests fragments
      ∧ outcome (compile c w) = .ok (.ofNode
        (.mk ((c.defaults.newElement .testPlan).withName (planName c w))
          (.mk (c.threadGroup.apply (c.defaults.newElement .threadGroup))
              ((c.filters.flatMap (headerManagers c.defaults)).reverse
                ++ (if c.cookieManager then [.leaf (c.defaults.newElement .cookieManager)] else [])
                ++ List.zipWith (withTimers c.defaults w c.filters) w.requests fragments)
            :: c.filters.flatMap (collectors c.defaults))))
      ∧ c.threadGroup.IsSetUp (c.defaults.newElement .threadGroup)
        (c.threadGroup.apply (c.defaults.newElement .threadGroup))
      ∧ (∀ pause, Filter.IsTimerOf c.defaults pause (Filter.timer c.defaults pause))
      ∧ ∀ filename, Filter.IsCollectorTo filename (c.defaults.newElement .resultCollector)
        (Filter.applyFilename filename (c.defaults.newElement .resultCollector)) := by
  obtain ⟨fragments, hfragments⟩ := standard_fragments c.defaults w.requests
  refine ⟨fragments, hfragments, ?_, c.threadGroup.isSetUp_apply _,
    Filter.isTimerOf_timer c.defaults, fun filename => Filter.isCollectorTo_applyFilename filename _⟩
  have hrun : outcome (Registry.standard.fragments c.defaults w.requests) = .ok fragments :=
    (Registry.fragments_ok_iff _ _ _ _).mpr (hfragments.imp fun _ _ h => h.1)
  have hsamplers : List.Forall₂ IsSamplerOf w.requests fragments :=
    hfragments.imp fun _ _ h => h.2
  -- the chain starts at the layout's plan, which is the closed form for no filters
  have hchain := value_chain c.defaults w c.scaffold hsamplers [] c.filters
  rw [finished_nil c.defaults w c.scaffold hsamplers.length_eq, List.nil_append, finished,
    rename_scaffold] at hchain
  rw [compile, outcome_transform, SingleGroup.outcome_layout, hrun]
  exact congrArg Except.ok hchain

end Plan

end LoadTest
