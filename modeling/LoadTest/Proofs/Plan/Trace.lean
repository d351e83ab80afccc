/-
The events of a run.

The reader of a log is told of a run from its first request to its plan, and
what is told is true. A request that has been handed over is mentioned whatever
comes of it; the first that fails is the last to be mentioned. Of each filter
the size of the tree before and after it is told, and the filters hand the tree
on, so the size after one is the size before the next. In between the sizes
differ by the nodes that the filter has put in (`usual_step`). A think-time
filter tells their number as well, and no other filter says anything.

A transformer that is neither kind's own may tell what it likes. `Registry.told`
has that as a parameter.

An event is one line of the log: a level, a wording and named particulars
(`Event.line`). `events_tell_the_run` spells the lines out.
-/
import LoadTest.Proofs.Plan.Census

set_option autoImplicit false

namespace LoadTest

open Build

/-! ## Lines -/

/-- What the reader of a log sees of an event. -/
structure LogLine where
  level : String
  message : String
  /-- The particulars by name. -/
  fields : List (String × String)
  deriving DecidableEq

namespace LogLine

/-- A line for every reader. -/
def info (message : String) (fields : List (String × String)) : LogLine := ⟨"INFO", message, fields⟩

/-- A line for those who look into the details. -/
def debug (message : String) (fields : List (String × String)) : LogLine :=
  ⟨"DEBUG", message, fields⟩

end LogLine

/-- The line of an event. -/
def Event.line (e : Event) : LogLine := ⟨e.level, e.message, e.fields⟩

/-! ## Requests -/

namespace Fragment

/-- The lines of the properties that a sampler does not know. -/
theorem lines_unrecognised (q : Request) :
    (unrecognised q).map Event.line
      = (q.properties.filter fun p => !(knownKeys q.kind).contains p.key).map fun p =>
        .debug "passing through unrecognised property"
          [("e_id", q.id), ("key", p.key), ("kind", (samplerKind q.kind).identifier)] :=
  List.map_map

/-- A built-in transformer tells of the properties that it does not recognise, if the
request is of its kind. -/
theorem events_forKind (d : ElementDefaults) (k : RequestKind) (q : Request) :
    (journal ((RequestTransformer.forKind k).transform d q)).events
      = if k = q.kind then unrecognised q else [] := by
  by_cases hk : k = q.kind
  · subst hk
    rw [journal_forKind, if_pos rfl]
    show Journal.events (_ ++ _) = _
    rw [Journal.events_append, Journal.events_map_event]
    -- the assertion is noted as an element
    rcases q.assertions.isEmpty with _ | _ <;> exact List.append_nil _
  · rw [journal_forKind_of_ne d hk, if_neg hk, Journal.events_nil]

end Fragment

namespace Registry

variable (r : Registry) (d : ElementDefaults)

/-- What is told of a request: that it has been handed over, and then what the
transformer tells. Without a transformer it is not mentioned. -/
def told (q : Request) : List Event :=
  match r.get? q.kind with
  | none => []
  | some t => .transformingRequest q.id q.kind :: (journal (t.transform d q)).events

variable {r d}

/-- Nothing is told of a request that nobody serves. -/
theorem told_of_none {q : Request} (h : r.get? q.kind = none) : r.told d q = [] := by
  rw [told, h]

/-- A request that somebody serves is announced, and then its transformer tells what it
has to. -/
theorem told_of_some {q : Request} {t : RequestTransformer} (h : r.get? q.kind = some t) :
    r.told d q = .transformingRequest q.id q.kind :: (journal (t.transform d q)).events := by
  rw [told, h]

theorem events_transform (q : Request) : (journal (r.transform d q)).events = r.told d q := by
  rcases h : r.get? q.kind with _ | t
  · rw [journal_transform_of_none h, told_of_none h, Journal.events_nil]
  · rw [journal_transform h, told_of_some h]
    rfl

theorem events_requests (qs : List Request) :
    Journal.events (qs.flatMap fun q => journal (r.transform d q)) = qs.flatMap (r.told d) := by
  rw [Journal.events_flatMap]
  exact List.flatMap_congr fun q _ => events_transform q

end Registry

/-! ## Filters -/

namespace FilterSpec

/-- The kind of the nodes that a filter puts in. -/
def kind? : FilterSpec → Option ElementKind
  | identity => none
  | headerDefaults _ => some .headerManager
  | thinkTime _ => some .gaussianRandomTimer
  | resultCollector _ => some .resultCollector

/-- What a filter tells by itself, having put in `n` nodes. -/
def remarks (n : Nat) : FilterSpec → List Event
  | thinkTime _ => [.timersAdded n]
  | _ => []

/-- The same in lines. -/
def remarkLines (n : Nat) : FilterSpec → List LogLine
  | thinkTime _ => [.debug "added think-time timers" [("timers", Decimal.text n)]]
  | _ => []

/-- The lines of what a filter remarks, in words. -/
theorem lines_remarks (n : Nat) (spec : FilterSpec) :
    (spec.remarks n).map Event.line = spec.remarkLines n := by
  cases spec <;> rfl

/-- The numbers of nodes that a filter can put into a tree that is not empty. -/
def Adds (n : Nat) : FilterSpec → Prop
  | identity => n = 0
  | headerDefaults headers => n = if headers.isEmpty then 0 else 1
  | thinkTime _ => True
  | resultCollector _ => n = 1

end FilterSpec

namespace Plan

open LoadTest.Filter (given)

section Steps

variable (d : ElementDefaults) (w : Workload)

/-- A filter notes the nodes that it puts in, all of one kind, and then tells
what it has to tell. -/
theorem journal_usual (spec : FilterSpec) {t : Tree} (ht : t.isEmpty = false) :
    ∃ n, (spec.build.apply d w t).journal
        = (spec.kind?.elim [] fun k => List.replicate n (.created k))
          ++ (spec.remarks n).map .event
      ∧ spec.Adds n := by
  rcases spec with _ | headers | fallback | filename
  · exact ⟨0, rfl, rfl⟩
  · refine ⟨_, ?_, rfl⟩
    rw [FilterSpec.build, journal_headerDefaults, ht, Bool.or_false]
    rcases headers.isEmpty with _ | _ <;> rfl
  · obtain ⟨n, -, hjournal⟩ := Filter.journal_thinkTime fallback d w t
    exact ⟨n, hjournal, trivial⟩
  · refine ⟨1, ?_, rfl⟩
    rw [FilterSpec.build, journal_resultCollector, ht]
    rfl

/-- One step of a chain: what the filter tells, and by how much the tree has
grown after it, in all and in each kind. -/
theorem usual_step (spec : FilterSpec) {t : Tree} (ht : t.isEmpty = false) :
    ∃ n, (spec.build.apply d w t).journal.events = spec.remarks n
      ∧ (spec.build.apply d w t).value.nodeCount = t.nodeCount + n
      ∧ (∀ k, ((spec.build.apply d w t).value.findKind k).length
        = (t.findKind k).length + if spec.kind? = some k then n else 0)
      ∧ spec.Adds n := by
  obtain ⟨n, hjournal, hadds⟩ := journal_usual d w spec ht
  have hcreated : (spec.build.apply d w t).journal.created
      = spec.kind?.elim [] fun k => List.replicate n k := by
    rw [hjournal, Journal.created_append, Journal.created_map_event, List.append_nil]
    rcases spec.kind? with _ | k
    · rfl
    · simp [Journal.created]
  have hevents : (spec.build.apply d w t).journal.events = spec.remarks n := by
    rw [hjournal, Journal.events_append, Journal.events_map_event]
    rcases spec.kind? with _ | k
    · rfl
    · simp [Journal.events]
  have hkinds := kinds_stage d w (.usual spec) t
  rw [Stage.build, hcreated] at hkinds
  -- both counts are read off the list of kinds, to which `n` of one kind are added
  refine ⟨n, hevents, ?_, ?_, hadds⟩
  · rw [← Tree.length_kinds, hkinds.length_eq, List.length_append, Tree.length_kinds]
    rcases spec with _ | headers | fallback | filename
    · rw [hadds]
      rfl
    all_goals exact congrArg _ List.length_replicate
  · intro k
    rw [Tree.length_findKind, Tree.length_findKind, hkinds.count_eq, List.count_append]
    rcases spec.kind? with _ | k'
    · rfl
    · show _ + List.count k (List.replicate n k') = _
      rw [List.count_replicate]
      by_cases hk : k' = k
      · simp [hk]
      · simp [hk]

variable {d w}

/-- What a chain of filters tells: each filter remarks what it has to, and is then
reported with the sizes of its tree before and after. -/
theorem events_chain (specs : List FilterSpec) {t : Tree} (ht : t.isEmpty = false) :
    let tree := given d w (specs.map FilterSpec.build) t
    (Filter.chain (specs.map FilterSpec.build) d w t).journal.events
        = (specs.zipIdx.flatMap fun v =>
          v.1.remarks ((tree (v.2 + 1)).nodeCount - (tree v.2).nodeCount)
            ++ [.filterApplied v.1.build.name (tree v.2).nodeCount (tree (v.2 + 1)).nodeCount
              (tree (v.2 + 1)).digest])
      ∧ ∀ i spec, specs[i]? = some spec →
        ∃ n, (tree (i + 1)).nodeCount = (tree i).nodeCount + n
          ∧ (∀ k, ((tree (i + 1)).findKind k).length
            = ((tree i).findKind k).length + if spec.kind? = some k then n else 0)
          ∧ spec.Adds n := by
  intro tree
  have hstep : ∀ i spec, specs[i]? = some spec →
      (tree i).isEmpty = false ∧ tree (i + 1) = (spec.build.apply d w (tree i)).value := by
    intro i spec hi
    refine ⟨?_, Filter.given_succ d w (by rw [List.getElem?_map, hi]; rfl) t⟩
    have hstages : specs.map FilterSpec.build = (specs.map Stage.usual).map Stage.build := by
      rw [List.map_map]
      rfl
    show (given d w (specs.map FilterSpec.build) t i).isEmpty = false
    rw [hstages, isEmpty_given, ht]
  constructor
  · rw [Filter.journal_chain, Journal.events_flatMap, List.zipIdx_map, List.flatMap_map]
    refine List.flatMap_congr fun v hv => ?_
    obtain ⟨hempty, htree⟩ := hstep v.2 v.1 (List.mem_zipIdx_iff_getElem?.mp hv)
    obtain ⟨n, hevents, hcount, -⟩ := usual_step d w v.1 hempty
    -- the number that is told is the number of nodes by which the tree has grown
    have hn : (tree (v.2 + 1)).nodeCount - (tree v.2).nodeCount = n := by
      rw [htree, hcount]
      omega
    rw [Journal.events_append, hn, ← hevents]
    rfl
  · intro i spec hi
    obtain ⟨hempty, htree⟩ := hstep i spec hi
    obtain ⟨n, -, hgrowth⟩ := usual_step d w spec hempty
    rw [htree]
    exact ⟨n, hgrowth⟩

end Steps

/-! ## The whole run -/

/-- What a layout tells: its requests one by one, and at the end the group with the
number of them. -/
theorem events_layout_ok {s : SingleGroup} {r : Registry} {d : ElementDefaults} {w : Workload}
    {ns : List Node} (h : outcome (r.fragments d w.requests) = .ok ns) :
    (journal (s.layout r d w)).events
      = w.requests.flatMap (r.told d) ++ [.threadGroupAssembled w.requests.length] := by
  have hlen : ns.length = w.requests.length :=
    ((r.fragments_ok_iff d w.requests ns).mp h).length_eq.symm
  rw [SingleGroup.journal_layout_ok h, Journal.events_append, r.journal_fragments_ok h,
    r.events_requests, SingleGroup.journal_assemble, hlen]
  rcases s.cookieManager with _ | _ <;> rfl

/-- If a request fails, it is the last that is told of. -/
theorem events_transform_error {s : SingleGroup} {r : Registry} {d : ElementDefaults}
    {w : Workload} (filters : Option (List Filter)) {e : TransformError}
    (h : outcome (s.layout r d w) = .error e) :
    ∃ pre q post, w.requests = pre ++ q :: post
      ∧ (∀ q' ∈ pre, ∃ n, outcome (r.transform d q') = .ok n)
      ∧ outcome (r.transform d q) = .error e
      ∧ (journal (transform s.layout r d filters w)).events
        = .transformingWorkload w.name w.requests.length :: (pre ++ [q]).flatMap (r.told d) := by
  have hns := (s.layout_error_iff r d w e).mp h
  obtain ⟨pre, q, post, hsplit, hpre, hq⟩ := (r.fragments_error_iff d w.requests e).mp hns
  refine ⟨pre, q, post, hsplit, ?_, hq, ?_⟩
  · intro q' hq'
    rcases h : outcome (r.transform d q') with e' | n
    · exact absurd h (hpre q' hq' e')
    · exact ⟨n, rfl⟩
  · rw [journal_transform_error h, SingleGroup.journal_layout_error hns, hsplit,
      r.journal_fragments_error hpre hq, ← r.events_requests]
    rfl

/-- If none fails, the filters come after the thread group, each with the sizes of
the trees around it. -/
theorem events_transform_ok {s : SingleGroup} {r : Registry} {d : ElementDefaults}
    {w : Workload} (specs : List FilterSpec) {ns : List Node}
    (h : outcome (r.fragments d w.requests) = .ok ns) :
    let tree := given d w (specs.map FilterSpec.build) (s.plan d w ns)
    (journal (transform s.layout r d (some (specs.map FilterSpec.build)) w)).events
      = .transformingWorkload w.name w.requests.length
        :: (w.requests.flatMap (r.told d) ++ [.threadGroupAssembled w.requests.length]
          ++ (specs.zipIdx.flatMap fun v =>
            v.1.remarks ((tree (v.2 + 1)).nodeCount - (tree v.2).nodeCount)
              ++ [.filterApplied v.1.build.name (tree v.2).nodeCount
                (tree (v.2 + 1)).nodeCount (tree (v.2 + 1)).digest])
          ++ [.planBuilt w.name (tree specs.length).nodeCount specs.length]) := by
  intro tree
  have hlast : tree specs.length
      = (Filter.chain (specs.map FilterSpec.build) d w (s.plan d w ns)).value := by
    have hlength := Filter.given_length d w (specs.map FilterSpec.build) (s.plan d w ns)
    rwa [List.length_map] at hlength
  obtain ⟨hevents, -⟩ := events_chain (d := d) (w := w) specs (t := s.plan d w ns) rfl
  rw [journal_transform_ok ((s.layout_ok_iff r d w _).mpr ⟨ns, h, rfl⟩), Option.getD_some,
    List.length_map, ← hevents, ← events_layout_ok h, hlast]
  show _ :: Journal.events (_ ++ (_ ++ _)) = _
  rw [Journal.events_append, Journal.events_append, ← List.append_assoc]
  rfl

/-- The log of a run, line by line. First the workload is announced. Then the
requests are told of, all of them or, if one fails, all up to that; and after a
failure there is nothing more. A request is mentioned if there is a transformer for
its kind, and behind it stand the properties that its sampler does not know, each
time that they are given. Otherwise the thread group is announced with as
many fragments as there are requests, then come the filters, and at last the
plan. Every size that is told is the size of the tree at that point, and a filter
has put in nodes of its kind and no others, as many as the sizes differ by. -/
theorem events_tell_the_run (s : SingleGroup) (r : Registry) (d : ElementDefaults) (w : Workload)
    (filters : Option (List FilterSpec)) :
    let run := transform s.layout r d (filters.map (·.map FilterSpec.build)) w
    let specs := filters.getD []
    let log := (journal run).events.map Event.line
    let opening : LogLine := .info "transforming workload model"
      [("model", w.name), ("requests", Decimal.text w.requests.length)]
    let handed (q : Request) : LogLine := .debug "transforming request"
      [("e_id", q.id), ("kind", q.kind.typeName)]
    let told (q : Request) : List LogLine := (r.told d q).map Event.line
    (∀ q, (r.get? q.kind = none → told q = [])
      ∧ (∀ k, r.get? q.kind = some (.forKind k) → told q
        = handed q :: if k = q.kind then
          (q.properties.filter fun p => !(Fragment.knownKeys q.kind).contains p.key).map fun p =>
            .debug "passing through unrecognised property" [("e_id", q.id), ("key", p.key),
              ("kind", (Fragment.samplerKind q.kind).identifier)]
          else [])
      ∧ ∀ t, r.get? q.kind = some t → told q
        = handed q :: (journal (t.transform d q)).events.map Event.line)
    ∧ (∀ e, outcome run = .error e →
      ∃ pre q post, w.requests = pre ++ q :: post
        ∧ (∀ q' ∈ pre, ∃ n, outcome (r.transform d q') = .ok n)
        ∧ outcome (r.transform d q) = .error e
        ∧ log = opening :: (pre ++ [q]).flatMap told)
    ∧ ∀ t, outcome run = .ok t →
      ∃ core, outcome (s.layout r d w) = .ok core
        ∧ let tree := given d w (specs.map FilterSpec.build) core
          tree specs.length = t
          ∧ log
            = opening :: (w.requests.flatMap told
                ++ [.debug "assembled thread group"
                  [("fragments", Decimal.text w.requests.length)]]
                ++ (specs.zipIdx.flatMap fun v =>
                  v.1.remarkLines ((tree (v.2 + 1)).nodeCount - (tree v.2).nodeCount)
                    ++ [.debug "applied filter" [("filter", v.1.build.name),
                      ("nodes_before", Decimal.text (tree v.2).nodeCount),
                      ("nodes_after", Decimal.text (tree (v.2 + 1)).nodeCount),
                      ("digest", (tree (v.2 + 1)).digest.short)]])
                ++ [.info "test plan built" [("model", w.name),
                  ("nodes", Decimal.text t.nodeCount), ("filters", Decimal.text specs.length)]])
          ∧ ∀ i spec, specs[i]? = some spec →
            ∃ n, (tree (i + 1)).nodeCount = (tree i).nodeCount + n
              ∧ (∀ k, ((tree (i + 1)).findKind k).length
                = ((tree i).findKind k).length + if spec.kind? = some k then n else 0)
              ∧ spec.Adds n := by
  intro run specs log opening handed told
  have hspecs : journal run
      = journal (transform s.layout r d (some (specs.map FilterSpec.build)) w) := by
    rcases filters with _ | filters <;> rfl
  refine ⟨?_, ?_, ?_⟩
  · intro q
    refine ⟨fun hq => ?_, fun k hk => ?_, fun t ht => ?_⟩
    · show (r.told d q).map Event.line = []
      rw [Registry.told_of_none hq, List.map_nil]
    · show (r.told d q).map Event.line = _
      rw [Registry.told_of_some hk, Fragment.events_forKind, List.map_cons, apply_ite (List.map _),
        Fragment.lines_unrecognised]
      rfl
    · show (r.told d q).map Event.line = _
      rw [Registry.told_of_some ht]
      rfl
  · intro e he
    obtain ⟨pre, q, post, hsplit, hpre, hq, hevents⟩ :=
      events_transform_error (filters.map (·.map FilterSpec.build)) (layout_error he)
    refine ⟨pre, q, post, hsplit, hpre, hq, ?_⟩
    show (journal run).events.map Event.line = _
    rw [hevents, List.map_cons, List.map_flatMap]
    rfl
  · intro t ht
    obtain ⟨core, hlayout, rfl⟩ := exists_layout_ok ht
    obtain ⟨ns, hns, rfl⟩ := (s.layout_ok_iff r d w core).mp hlayout
    obtain ⟨-, hgrowth⟩ := events_chain (d := d) (w := w) specs (t := s.plan d w ns) rfl
    -- the tree behind the last filter is the tree of the chain
    have hlast := Filter.given_length d w (specs.map FilterSpec.build) (s.plan d w ns)
    rw [List.length_map] at hlast
    have hchain : (filters.map (·.map FilterSpec.build)).getD [] = specs.map FilterSpec.build :=
      Option.getD_map _ [] filters
    rw [hchain]
    refine ⟨s.plan d w ns, hlayout, hlast, ?_, hgrowth⟩
    show (journal run).events.map Event.line = _
    rw [hspecs, events_transform_ok specs hns, hlast]
    simp only [List.map_cons, List.map_append, List.map_flatMap, FilterSpec.lines_remarks,
      List.map_nil]
    rfl

/-- A sampler with a property that it does not know, a collector, and three
filters; and the same without a transformer for the second request, which is
where the log ends. -/
theorem second_request_ends_trace :
    let r := Registry.empty.registerAll
      [(.soap, Fixture.markerTransformer .soap), (.http, .forKind .http)]
    let r' := Registry.empty.registerAll [(.http, .forKind .http)]
    let q : Request := .http ⟨"a", [⟨"HTTPSampler.path", "/"⟩, ⟨"X-Trace", "on"⟩], [], [], none⟩
    let w : Workload := ⟨"w", [q, .soap (.new "b")], none⟩
    let specs : List FilterSpec := [.resultCollector none, .thinkTime (some ⟨5, 1⟩), .identity]
    let run (r : Registry) := transform SingleGroup.standard.layout r .empty
      (some (specs.map FilterSpec.build)) w
    let log (r : Registry) := (journal (run r)).events.map Event.line
    let told : List LogLine :=
      [⟨"INFO", "transforming workload model", [("model", "w"), ("requests", "2")]⟩,
        ⟨"DEBUG", "transforming request", [("e_id", "a"), ("kind", "HttpRequest")]⟩,
        ⟨"DEBUG", "passing through unrecognised property",
          [("e_id", "a"), ("key", "X-Trace"), ("kind", "http_sampler")]⟩]
    (∃ core, outcome (SingleGroup.standard.layout r .empty w) = .ok core
      ∧ let collected := ((Filter.resultCollector none).apply .empty w core).value
        let timed := ((Filter.thinkTime (some ⟨5, 1⟩)).apply .empty w collected).value
        outcome (run r) = .ok timed
        ∧ log r = told ++
          [⟨"DEBUG", "transforming request", [("e_id", "b"), ("kind", "SoapRequest")]⟩,
            ⟨"DEBUG", "assembled thread group", [("fragments", "2")]⟩,
            ⟨"DEBUG", "applied filter", [("filter", "result_collector"), ("nodes_before", "5"),
              ("nodes_after", "6"), ("digest", collected.digest.short)]⟩,
            ⟨"DEBUG", "added think-time timers", [("timers", "1")]⟩,
            ⟨"DEBUG", "applied filter", [("filter", "think_time"), ("nodes_before", "6"),
              ("nodes_after", "7"), ("digest", timed.digest.short)]⟩,
            ⟨"DEBUG", "applied filter", [("filter", "identity"), ("nodes_before", "7"),
              ("nodes_after", "7"), ("digest", timed.digest.short)]⟩,
            ⟨"INFO", "test plan built", [("model", "w"), ("nodes", "7"), ("filters", "3")]⟩])
    ∧ outcome (run r') = .error (.unregisteredKind "b" .soap)
    ∧ log r' = told := by
  intro r r' q w specs run log told
  obtain ⟨-, -, hok⟩ := events_tell_the_run .standard r .empty w (some specs)
  obtain ⟨-, herror, -⟩ := events_tell_the_run .standard r' .empty w (some specs)
  have hrun : outcome (run r) = .ok _ := outcome_transform_ok rfl _
  have hrun' : outcome (run r') = .error (.unregisteredKind "b" .soap) :=
    outcome_transform_error rfl _
  obtain ⟨core, hcore, -, hlog, -⟩ := hok _ hrun
  obtain ⟨pre, q', post, hsplit, -, hq', hlog'⟩ := herror _ hrun'
  obtain rfl : _ = core := Except.ok.inj hcore
  -- the sizes are computed as numbers, and the log has them as text
  have h1 : Decimal.text 1 = "1" := Decimal.text_of_lt (by decide)
  have h2 : Decimal.text 2 = "2" := Decimal.text_of_lt (by decide)
  have h3 : Decimal.text 3 = "3" := Decimal.text_of_lt (by decide)
  have h5 : Decimal.text 5 = "5" := Decimal.text_of_lt (by decide)
  have h6 : Decimal.text 6 = "6" := Decimal.text_of_lt (by decide)
  have h7 : Decimal.text 7 = "7" := Decimal.text_of_lt (by decide)
  simp only [told, ← h1, ← h2, ← h3, ← h5, ← h6, ← h7]
  refine ⟨⟨_, hcore, hrun, hlog.trans rfl⟩, hrun', hlog'.trans ?_⟩
  -- it is the second request that fails
  rcases pre with _ | ⟨q₁, _ | ⟨q₂, pre⟩⟩
  · obtain ⟨rfl, -⟩ := List.cons.inj hsplit
    cases hq'
  · obtain ⟨rfl, htail⟩ := List.cons.inj hsplit
    obtain ⟨rfl, -⟩ := List.cons.inj htail
    rfl
  · simp [w] at hsplit

end Plan

end LoadTest
