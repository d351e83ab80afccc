/-
What recording filters see.

A recorder notes the tree that it is given, and the tree that it is given is what
the filters in front of it have made of the layout's. So the observations of a
run can be written down without running it: one for each recorder, in chain
order, of the tree at its place (`observations_chain`).

A recorder also leaves a marker below the root. The other filters put nodes
there too, in front of the children of the scope and behind all children, but no
node of theirs bears the name of a marker, and the children that are there keep
their elements (`markers_usual`). The markers in a tree are therefore those of
the layout's tree and then the labels of the recorders that have seen it.
-/
import LoadTest.Proofs.Plan.Run

set_option autoImplicit false

namespace LoadTest.Plan

open Build
open LoadTest.Filter (given timedForest dueTimers)
open Fixture (markers markerPrefix observe)

section Recording

variable (d : ElementDefaults) (w : Workload)

/-! ## Observations -/

/-- A configured filter observes nothing. -/
theorem observations_usual (spec : FilterSpec) (t : Tree) :
    (spec.build.apply d w t).journal.observations = [] := by
  rcases spec with _ | headers | fallback | filename
  · rfl
  · rw [FilterSpec.build, journal_headerDefaults]
    rcases headers.isEmpty || t.isEmpty with _ | _ <;> rfl
  · obtain ⟨j, -, hjournal⟩ := Filter.journal_thinkTime fallback d w t
    rw [FilterSpec.build, hjournal, Journal.observations_append]
    simp [Journal.observations]
  · rw [FilterSpec.build, journal_resultCollector]
    rcases t.isEmpty with _ | _ <;> rfl

/-- A recorder observes the tree it is given; the other filters observe nothing. -/
theorem observations_stage (stage : Stage) (t : Tree) :
    (stage.build.apply d w t).journal.observations
      = (stage.label?.map fun label => observe label t).toList := by
  rcases stage with spec | label
  · exact observations_usual d w spec t
  · rw [Stage.build, journal_recording]
    rcases t.isEmpty with _ | _ <;> rfl

/-- A recording filter at the head of a chain observes the tree that the chain is given,
and the rest of the chain follows. -/
theorem observations_chain_cons (stage : Stage) (stages : List Stage) (t : Tree) :
    (Filter.chain ((stage :: stages).map Stage.build) d w t).journal.observations
      = (stage.label?.map fun label => observe label t).toList
        ++ (Filter.chain (stages.map Stage.build) d w
          (stage.build.apply d w t).value).journal.observations := by
  rw [List.map_cons, Filter.journal_chain_cons, Journal.observations_append, observations_stage]
  rfl

/-- One observation for every recorder, of the tree that is given to it. -/
theorem observations_chain (stages : List Stage) (t : Tree) :
    (Filter.chain (stages.map Stage.build) d w t).journal.observations
      = stages.zipIdx.filterMap fun v =>
        v.1.label?.map fun label => observe label (given d w (stages.map Stage.build) t v.2) := by
  induction stages generalizing t with
  | nil => rfl
  | cons stage stages ih =>
    rw [observations_chain_cons, ih, List.zipIdx_cons, Nat.zero_add, List.zipIdx_succ,
      List.filterMap_cons, List.filterMap_map]
    -- the trees behind the first filter are those of the chain without it
    rcases stage with spec | label
    · rfl
    · rfl

/-! ## Markers -/

/-- Putting nodes in front of the children of a node changes no element at the root. -/
theorem element_modify_precede (added : List Node) (p : Path) (n : Node) :
    (n.modify (precede added) p).element = n.element := by
  rcases p with _ | ⟨i, p⟩
  · rfl
  · rfl

/-- A change that leaves elements alone leaves those of a list alone. -/
theorem map_element_modify {f : Node → Node} (hf : ∀ n, (f n).element = n.element) (i : Nat)
    (cs : List Node) : (cs.modify i f).map Node.element = cs.map Node.element := by
  induction cs generalizing i with
  | nil => rw [List.modify_nil]
  | cons c cs ih =>
    cases i with
    | zero => rw [List.modify_zero_cons, List.map_cons, List.map_cons, hf]
    | succ i => rw [List.modify_succ_cons, List.map_cons, List.map_cons, ih]

/-- Timers are put below samplers, so the elements of the children themselves stay. -/
theorem map_element_timedForest (fallback : Option ThinkTime) (k : Nat) (cs : List Node) :
    (timedForest fallback d w k cs).map Node.element = cs.map Node.element := by
  induction cs generalizing k with
  | nil => rfl
  | cons c cs ih =>
    obtain ⟨e, cs'⟩ := c
    rw [timedForest, List.map_cons, List.map_cons, ih]
    rfl

/-- Whether a node bears the name of a marker. -/
def isMarker (e : Element) : Bool := markerPrefix.toList.isPrefixOf e.name.toList

/-- The markers of a tree are among the children of its root. -/
theorem markers_eq (n : Node) :
    markers (.ofNode n) = ((n.children.map Node.element).filter isMarker).map Element.name := by
  show ((n.children.map fun c => c.element.name).filter fun s => _) = _
  rw [List.filter_map, List.filter_map, List.map_map]
  rfl

/-- Leaves that are called what their kind is called are no markers, if the name
of the kind is none. -/
theorem filter_isMarker_of_leaf (kind : ElementKind) (hkind : isMarker (.new kind) = false)
    {ns : List Node} (hns : ∀ n ∈ ns, ∃ e : Element, n = .leaf e ∧ e.name = kind.defaultName) :
    (ns.map Node.element).filter isMarker = [] := by
  rw [List.filter_eq_nil_iff]
  intro e he
  obtain ⟨n, hn, rfl⟩ := List.mem_map.mp he
  obtain ⟨e, rfl, hname⟩ := hns n hn
  have hname' : isMarker e = isMarker (.new kind) := by
    rw [isMarker, isMarker, hname]
    rfl
  rw [Node.element_leaf, hname', hkind]
  exact Bool.false_ne_true

theorem filter_isMarker_headerManagers (headers : Filter.Headers) :
    ((headerManagers d (.headerDefaults headers)).map Node.element).filter isMarker = [] := by
  refine filter_isMarker_of_leaf .headerManager (by decide) ?_
  intro n hn
  obtain ⟨e, rfl, -, hname⟩ := headerManagers_leaf d _ n hn
  exact ⟨e, rfl, hname⟩

theorem filter_isMarker_dueTimers (fallback : Option ThinkTime) (k : Nat) (e : Element) :
    ((dueTimers fallback d w k e).map Node.element).filter isMarker = [] := by
  refine filter_isMarker_of_leaf .gaussianRandomTimer (by decide) ?_
  intro n hn
  obtain ⟨pause, rfl⟩ := Filter.exists_eq_timer fallback d w hn
  exact ⟨_, rfl, rfl⟩

/-- A collector that no recording filter has made is no marker, since it has another
name. -/
theorem filter_isMarker_collectors (filename : Option String) :
    ((collectors d (.resultCollector filename)).map Node.element).filter isMarker = [] := by
  refine filter_isMarker_of_leaf .resultCollector (by decide) ?_
  intro n hn
  obtain ⟨e, rfl, -, hname⟩ := collectors_leaf d _ n hn
  exact ⟨e, rfl, hname⟩

/-- Configured filters leave the markers and their order alone. -/
theorem markers_usual (spec : FilterSpec) (t : Tree) :
    markers (spec.build.apply d w t).value = markers t := by
  rw [value_apply_eq]
  obtain ⟨root⟩ := t
  rcases root with _ | ⟨e, cs⟩
  · rfl
  · show markers (.ofNode (filtered d w spec (.mk e cs))) = markers (.ofNode (.mk e cs))
    rw [markers_eq, markers_eq]
    congr 1
    rcases spec with _ | headers | fallback | filename
    · rfl
    · rw [filtered]
      rcases (Node.mk e cs).scope with _ | ⟨i, p⟩
      · -- the root is the scope, so the header manager is one of its children
        rw [Node.modify, precede, Node.withChildren, Node.children_mk, Node.children_mk,
          List.map_append, List.filter_append, filter_isMarker_headerManagers, List.nil_append]
      · rw [Node.modify, Node.withChildren, Node.children_mk, Node.children_mk,
          map_element_modify (element_modify_precede _ p)]
    · rw [filtered, Filter.timedNode, Node.children_mk, Node.children_mk, List.map_append,
        List.filter_append, filter_isMarker_dueTimers, List.append_nil, map_element_timedForest]
    · rw [filtered, Node.withChildren, Node.children_mk, Node.children_mk, List.map_append,
        List.filter_append, filter_isMarker_collectors, List.append_nil]

/-- A recording filter adds its marker behind those that are there. -/
theorem markers_recording (label : String) {t : Tree} (ht : t.isEmpty = false) :
    markers ((Fixture.recording label).apply d w t).value
      = markers t ++ [markerPrefix ++ label] := by
  obtain ⟨root⟩ := t
  rcases root with _ | ⟨e, cs⟩
  · cases ht
  · have hmarker : isMarker ((d.newElement .resultCollector).withName (markerPrefix ++ label))
        = true := by
      rw [isMarker, Element.name_withName, String.toList_append, List.isPrefixOf_iff_prefix]
      exact List.prefix_append _ _
    show markers (.ofNode (.mk e (cs ++ [.leaf ((d.newElement .resultCollector).withName
      (markerPrefix ++ label))]))) = markers (.ofNode (.mk e cs)) ++ _
    rw [markers_eq, markers_eq, Node.children_mk, Node.children_mk, List.map_append,
      List.filter_append, List.map_append, List.map_singleton, Node.element_leaf,
      List.filter_cons_of_pos hmarker]
    rfl

/-- The markers of the tree that is given to filter number `i`. -/
theorem markers_given (stages : List Stage) {t : Tree} (ht : t.isEmpty = false) (i : Nat) :
    markers (given d w (stages.map Stage.build) t i)
      = markers t ++ ((stages.take i).filterMap Stage.label?).map (markerPrefix ++ ·) := by
  induction stages generalizing t i with
  | nil => simp [given, Filter.chain]
  | cons stage stages ih =>
    cases i with
    | zero => simp
    | succ i =>
      have hrest := ih ((stage.isEmpty_build d w t).trans ht) i
      -- the rest starts with the markers that the first filter leaves
      rw [List.map_cons, Filter.given_cons_succ, hrest, List.take_succ_cons]
      rcases stage with spec | label
      · rw [Stage.build, markers_usual]
        rfl
      · rw [Stage.build, markers_recording d w label ht, List.append_assoc]
        rfl

/-! ## Identities -/

/-- Without the identities a chain makes the same tree, and the recorders in it
see the same. -/
theorem chain_without_identities (stages : List Stage) (t : Tree) :
    (Filter.chain ((stages.filter (· ≠ .usual .identity)).map Stage.build) d w t).value
        = (Filter.chain (stages.map Stage.build) d w t).value
      ∧ (Filter.chain ((stages.filter (· ≠ .usual .identity)).map Stage.build) d w
          t).journal.observations
        = (Filter.chain (stages.map Stage.build) d w t).journal.observations := by
  induction stages generalizing t with
  | nil => exact ⟨rfl, rfl⟩
  | cons stage stages ih =>
    by_cases h : stage = .usual .identity
    · -- what an identity leaves to the others is what it is given, and it sees nothing
      subst h
      obtain ⟨hvalue, hobservations⟩ := ih t
      rw [List.filter_cons_of_neg (by simp), observations_chain_cons]
      exact ⟨hvalue, hobservations⟩
    · obtain ⟨hvalue, hobservations⟩ := ih (stage.build.apply d w t).value
      rw [List.filter_cons_of_pos (by simpa using h), observations_chain_cons,
        observations_chain_cons, hobservations]
      exact ⟨hvalue, rfl⟩

end Recording

/-! ## The whole run -/

section Run

variable (layout : Layout) (r : Registry) (d : ElementDefaults) (w : Workload)

/-- A run observes what its layout observes and then what its filters do. -/
theorem observations_transform_ok {t : Tree} (h : outcome (layout r d w) = .ok t)
    (stages : List Stage) :
    (journal (transform layout r d (some (stages.map Stage.build)) w)).observations
      = (journal (layout r d w)).observations
        ++ (Filter.chain (stages.map Stage.build) d w t).journal.observations := by
  rw [journal_transform_ok h]
  show Journal.observations (_ ++ (_ ++ _)) = _
  rw [Journal.observations_append, Journal.observations_append, ← List.append_assoc]
  exact List.append_nil _

/-- A run that fails observes no more than its layout. -/
theorem observations_transform_error {e : TransformError} (h : outcome (layout r d w) = .error e)
    (filters : Option (List Filter)) :
    (journal (transform layout r d filters w)).observations
      = (journal (layout r d w)).observations := by
  rw [journal_transform_error h]
  rfl

/-- Filters that do nothing can be left out: neither the plan nor the observations
change. -/
theorem run_without_identities (stages : List Stage) :
    outcome (transform layout r d
        (some ((stages.filter (· ≠ .usual .identity)).map Stage.build)) w)
      = outcome (transform layout r d (some (stages.map Stage.build)) w)
    ∧ (journal (transform layout r d
        (some ((stages.filter (· ≠ .usual .identity)).map Stage.build)) w)).observations
      = (journal (transform layout r d (some (stages.map Stage.build)) w)).observations := by
  rcases h : outcome (layout r d w) with e | t
  · rw [outcome_transform_error h, outcome_transform_error h,
      observations_transform_error layout r d w h, observations_transform_error layout r d w h]
    exact ⟨rfl, rfl⟩
  · obtain ⟨hvalue, hobservations⟩ := chain_without_identities d w stages t
    rw [outcome_transform_ok h, outcome_transform_ok h, observations_transform_ok layout r d w h,
      observations_transform_ok layout r d w h, hobservations]
    exact ⟨congrArg Except.ok hvalue, rfl⟩

/-- A built-in transformer observes nothing. -/
theorem observations_forKind (k : RequestKind) (q : Request) :
    (journal ((RequestTransformer.forKind k).transform d q)).observations = [] := by
  by_cases hk : k = q.kind
  · subst hk
    rw [Fragment.journal_forKind]
    show Journal.observations (_ ++ _) = []
    rw [Journal.observations_append, Journal.observations_map_event, List.nil_append]
    rcases q.assertions.isEmpty with _ | _ <;> rfl
  · -- the request is rejected before anything is made of it
    rw [Fragment.journal_forKind_of_ne d hk]
    rfl

/-- The usual layouts leave no observations of their own. -/
theorem observations_layout (s : SingleGroup)
    (hr : ∀ k t, r.get? k = some t → ∀ q, (journal (t.transform d q)).observations = []) :
    (journal (s.layout r d w)).observations = [] := by
  have htransform : ∀ q, (journal (r.transform d q)).observations = [] := by
    intro q
    rcases ht : r.get? q.kind with _ | t
    · rw [r.journal_transform_of_none ht]
      rfl
    · rw [r.journal_transform ht]
      exact hr q.kind t ht q
  have hrequests : ∀ qs : List Request,
      Journal.observations (qs.flatMap fun q => journal (r.transform d q)) = [] := by
    intro qs
    rw [Journal.observations_flatMap, List.flatMap_eq_nil_iff]
    exact fun q _ => htransform q
  rcases hns : outcome (r.fragments d w.requests) with e | ns
  · obtain ⟨pre, q, post, hsplit, hpre, hq⟩ := (r.fragments_error_iff d w.requests e).mp hns
    rw [SingleGroup.journal_layout_error hns, hsplit, r.journal_fragments_error hpre hq]
    exact hrequests _
  · -- the scaffolding notes elements and an event
    rw [SingleGroup.journal_layout_ok hns, Journal.observations_append,
      r.journal_fragments_ok hns, hrequests, List.nil_append, SingleGroup.journal_assemble]
    rcases s.cookieManager with _ | _ <;> rfl

/-- Each filter is given what the filters in front of it have made. If the layout
fails, the run fails with its error and no recorder sees anything. Otherwise
there is one observation for each recorder, in order, of the tree that is given
to it, and the markers in that tree are the layout's and then the labels of the
recorders in front. A chain may be run in two parts. Filters that do nothing may
be left out, and so may a chain of no filters. The layout's own observations come
first; the usual layouts have none unless a transformer has. -/
theorem filters_see_their_predecessors_tree (stages : List Stage) :
    let run (filters : Option (List Stage)) :=
      transform layout r d (filters.map (·.map Stage.build)) w
    let own := (journal (layout r d w)).observations
    (∀ e, outcome (layout r d w) = .error e →
      outcome (run stages) = .error e ∧ (journal (run stages)).observations = own)
    ∧ (∀ t, outcome (layout r d w) = .ok t →
      let seen := given d w (stages.map Stage.build) t
      outcome (run stages) = .ok (seen stages.length)
      ∧ (journal (run stages)).observations
        = own ++ (stages.zipIdx.filterMap fun v =>
          v.1.label?.map fun label =>
            ⟨label, (seen v.2).digest, (seen v.2).nodeCount, markers (seen v.2)⟩)
      ∧ (t.isEmpty = false → ∀ i, markers (seen i)
        = markers t ++ ((stages.take i).filterMap Stage.label?).map (markerPrefix ++ ·)))
    ∧ (∀ first second, stages = first ++ second → ∀ t, outcome (run first) = .ok t →
      outcome (run stages) = .ok (Filter.chain (second.map Stage.build) d w t).value)
    ∧ (∀ fewer : List Stage,
      fewer.filter (· ≠ .usual .identity) = stages.filter (· ≠ .usual .identity) →
      outcome (run fewer) = outcome (run stages)
      ∧ (journal (run fewer)).observations = (journal (run stages)).observations)
    ∧ (outcome (run none) = outcome (run (some []))
      ∧ (journal (run none)).observations = (journal (run (some []))).observations)
    ∧ ∀ s : SingleGroup, layout = s.layout →
      (∀ k t, r.get? k = some t → ∀ q, (journal (t.transform d q)).observations = []) →
      own = [] := by
  intro run own
  refine ⟨?_, ?_, ?_, ?_, ⟨rfl, rfl⟩, ?_⟩
  · intro e he
    exact ⟨outcome_transform_error he _, observations_transform_error layout r d w he _⟩
  · intro t ht
    refine ⟨?_, ?_, fun hempty i => markers_given d w stages hempty i⟩
    · have hlast := Filter.given_length d w (stages.map Stage.build) t
      rw [List.length_map] at hlast
      show outcome (transform _ _ _ _ _) = .ok (given _ _ _ _ _)
      rw [hlast]
      exact outcome_transform_ok ht _
    · exact (observations_transform_ok layout r d w ht stages).trans
        (congrArg (own ++ ·) (observations_chain d w stages t))
  · rintro first second rfl t ht
    -- both runs start from the same layout
    obtain ⟨core, hlayout, rfl⟩ := exists_layout_ok ht
    refine (outcome_transform_ok hlayout _).trans ?_
    show Except.ok (Filter.chain ((first ++ second).map Stage.build) d w core).value = _
    rw [List.map_append, Filter.chain_append, Logged.value_bind]
    rfl
  · intro fewer hfewer
    obtain ⟨hout, hobs⟩ := run_without_identities layout r d w stages
    obtain ⟨hout', hobs'⟩ := run_without_identities layout r d w fewer
    rw [hfewer] at hout' hobs'
    exact ⟨hout'.symm.trans hout, hobs'.symm.trans hobs⟩
  · rintro s rfl hr
    exact observations_layout r d w s hr

/-- Two recorders around a collector: the first sees the layout's tree, the second
that tree with the mark of the first and the collector. Leaving out the identity
between them changes nothing, and without transformers neither recorder is reached. -/
theorem second_recorder_sees_first_marker :
    let w : Workload := ⟨"w", [.http (.new "a")], none⟩
    let tail : List Stage := [.usual (.resultCollector none), .recorder "second"]
    let run (r : Registry) (stages : List Stage) :=
      transform SingleGroup.standard.layout r .empty (some (stages.map Stage.build)) w
    let marker (label : String) : Node :=
      .leaf ((Element.new .resultCollector).withName ("marker:" ++ label))
    ∃ plan group : Element, ∃ cs,
      let tree (rest : List Node) : Tree := .ofNode (.mk plan (.mk group cs :: rest))
      let made := [marker "first", .leaf (.new .resultCollector)]
      outcome (SingleGroup.standard.layout .standard .empty w) = .ok (tree [])
      ∧ outcome (run .standard (.recorder "first" :: .usual .identity :: tail))
        = .ok (tree (made ++ [marker "second"]))
      ∧ outcome (run .standard (.recorder "first" :: tail))
        = .ok (tree (made ++ [marker "second"]))
      ∧ markers (tree (made ++ [marker "second"])) = ["marker:first", "marker:second"]
      ∧ (journal (run .standard (.recorder "first" :: .usual .identity :: tail))).observations
        = [⟨"first", (tree []).digest, 4, []⟩, ⟨"second", (tree made).digest, 6, ["marker:first"]⟩]
      ∧ outcome (run .empty (.recorder "first" :: tail)) = .error (.unregisteredKind "a" .http)
      ∧ (journal (run .empty (.recorder "first" :: tail))).observations = [] := by
  intro w tail run marker
  obtain ⟨-, hseen, -, hfewer, -, hown⟩ :=
    filters_see_their_predecessors_tree SingleGroup.standard.layout .standard .empty w
      (.recorder "first" :: .usual .identity :: tail)
  obtain ⟨herror, -, -, -, -, hown'⟩ :=
    filters_see_their_predecessors_tree SingleGroup.standard.layout .empty .empty w
      (.recorder "first" :: tail)
  have hown := hown .standard rfl (by
    intro k t ht q
    rw [Registry.get?_standard] at ht
    rw [← Option.some.inj ht]
    exact observations_forKind .empty k q)
  have hown' := hown' .standard rfl fun _ _ ht => by cases ht
  obtain ⟨hout, hobservations, hmarkers⟩ := hseen _ rfl
  rw [hown] at hobservations
  obtain ⟨hfewer, -⟩ := hfewer (.recorder "first" :: tail) (by decide)
  obtain ⟨hfails, hnothing⟩ := herror _ rfl
  exact ⟨_, _, _, rfl, hout, hfewer.trans hout, hmarkers rfl 4, hobservations.trans rfl, hfails,
    hnothing.trans hown'⟩

end Run

end LoadTest.Plan
