/-
The journal of a run, in the order of the run.

A journal is written by whoever is at work: the registry when a request is
handed over, the transformer that makes the fragment, the layout, and then the
filters one by one. Each part appends to what is there, so the journal of a run
is the journals of its parts one after the other, and the only branch is the one
at the first failure: what has been noted until then stays, and nothing follows.

The second half is about chains. `Filter.given` is the tree that filter number
`i` of a chain is given, and both the tree and the journal of a chain are written
down with it. What a configured filter notes is known in full (`journal_apply`).
The insertion of a header manager never fails, so there is never a warning; and
the number of timers that is reported is the number of nodes that are new.
-/
import LoadTest.Fixture.Doubles
import LoadTest.Proofs.Plan.Additions

set_option autoImplicit false

namespace LoadTest

open Build

/-! ## Views of a journal -/

namespace Journal

variable {α : Type}

@[simp] theorem events_nil : events [] = [] := rfl

theorem events_flatMap (xs : List α) (f : α → Journal) :
    events (xs.flatMap f) = xs.flatMap fun x => events (f x) :=
  List.filterMap_flatMap

theorem observations_flatMap (xs : List α) (f : α → Journal) :
    observations (xs.flatMap f) = xs.flatMap fun x => observations (f x) :=
  List.filterMap_flatMap

@[simp] theorem events_map_event (es : List Event) : events (es.map .event) = es := by
  rw [events, List.filterMap_map]
  exact List.filterMap_some

@[simp] theorem created_map_event (es : List Event) : created (es.map .event) = [] := by
  rw [created, List.filterMap_map]
  exact List.filterMap_eq_nil_iff.mpr fun _ _ => rfl

@[simp] theorem observations_map_event (es : List Event) : observations (es.map .event) = [] := by
  rw [observations, List.filterMap_map]
  exact List.filterMap_eq_nil_iff.mpr fun _ _ => rfl

end Journal

/-! ## Computations that may fail -/

namespace Build

variable {α β : Type}

/-- What a computation has noted by the time it is finished or has failed. -/
def journal (m : Build α) : Journal := m.run.journal

/-- A computation that cannot fail keeps its journal among those that can. -/
theorem journal_lift (m : Logged α) : journal (ExceptT.lift m) = m.journal :=
  Logged.journal_map Except.ok m

/-- A step that succeeds is followed by what the rest of the computation notes. -/
theorem journal_bind_ok {m : Build α} {a : α} (hm : outcome m = .ok a) (f : α → Build β) :
    journal (m >>= f) = journal m ++ journal (f a) := by
  have hvalue : m.run.value = .ok a := hm
  show (m.run >>= ExceptT.bindCont f).journal = _
  rw [Logged.journal_bind, hvalue]
  rfl

/-- A step that fails leaves its own journal, and nothing follows. -/
theorem journal_bind_error {m : Build α} {e : TransformError} (hm : outcome m = .error e)
    (f : α → Build β) : journal (m >>= f) = journal m := by
  have hvalue : m.run.value = .error e := hm
  show (m.run >>= ExceptT.bindCont f).journal = _
  -- the continuation of a failure is pure, so it notes nothing
  rw [Logged.journal_bind, hvalue]
  exact List.append_nil m.run.journal

end Build

/-! ## Requests -/

namespace Registry

variable {r : Registry} {d : ElementDefaults}

/-- A request that somebody serves is announced, and what follows is the transformer's. -/
theorem journal_transform {q : Request} {t : RequestTransformer} (h : r.get? q.kind = some t) :
    journal (r.transform d q)
      = .event (.transformingRequest q.id q.kind) :: journal (t.transform d q) := by
  simp only [transform, h]
  rfl

/-- A request of a kind that nobody serves is refused without a note. -/
theorem journal_transform_of_none {q : Request} (h : r.get? q.kind = none) :
    journal (r.transform d q) = [] := by
  simp only [transform, h]
  rfl

/-- As long as requests become fragments, the run goes on with the next. -/
theorem journal_fragments_append {pre : List Request}
    (hpre : ∀ q ∈ pre, ∀ e, outcome (r.transform d q) ≠ .error e) (qs : List Request) :
    journal (r.fragments d (pre ++ qs))
      = pre.flatMap (fun q => journal (r.transform d q)) ++ journal (r.fragments d qs) := by
  -- on the requests that succeed; what comes behind them may fail
  induction pre with
  | nil => rfl
  | cons q pre ih =>
    have hrest := ih fun q' hq' => hpre q' (List.mem_cons_of_mem _ hq')
    rcases hq : outcome (r.transform d q) with e | n
    · exact absurd hq (hpre q List.mem_cons_self e)
    · -- putting the fragment in front of the others is not noted
      have hcons : journal (r.fragments d (pre ++ qs) >>= fun ns => pure (n :: ns))
          = journal (r.fragments d (pre ++ qs)) := by
        rcases hns : outcome (r.fragments d (pre ++ qs)) with e | ns
        · exact journal_bind_error hns _
        · rw [journal_bind_ok hns]
          exact List.append_nil _
      rw [List.cons_append, fragments, journal_bind_ok hq, hcons, hrest, List.flatMap_cons,
        List.append_assoc]

/-- Requests that all succeed leave their journals in the order of the requests. -/
theorem journal_fragments_ok {qs : List Request} {ns : List Node}
    (h : outcome (r.fragments d qs) = .ok ns) :
    journal (r.fragments d qs) = qs.flatMap fun q => journal (r.transform d q) := by
  have hall : ∀ q ∈ qs, ∀ e, outcome (r.transform d q) ≠ .error e := by
    intro q hq e he
    obtain ⟨e', he'⟩ := (r.fragments_fails_iff d qs).mpr ⟨q, hq, e, he⟩
    rw [h] at he'
    cases he'
  have happend := journal_fragments_append hall []
  rw [List.append_nil] at happend
  exact happend.trans (List.append_nil _)

/-- The first request that fails is the last one to leave anything in the journal. -/
theorem journal_fragments_error {pre post : List Request} {q : Request} {e : TransformError}
    (hpre : ∀ q' ∈ pre, ∀ e', outcome (r.transform d q') ≠ .error e')
    (hq : outcome (r.transform d q) = .error e) :
    journal (r.fragments d (pre ++ q :: post))
      = (pre ++ [q]).flatMap fun q => journal (r.transform d q) := by
  rw [journal_fragments_append hpre, fragments, journal_bind_error hq, List.flatMap_append,
    List.flatMap_singleton]

/-- A registry has been filled with known transformers exactly if all that stand
in it are known. -/
theorem filled_iff : r.Filled ↔ ∀ k t, r.get? k = some t → t.Known := by
  constructor
  · exact fun hr k t h => hr.known h
  · intro h
    refine ⟨RequestKind.all.filterMap fun k => (r.get? k).map fun t => (k, t), ?_, ?_⟩
    · intro t ht
      obtain ⟨k, -, hk⟩ := List.mem_filterMap.mp ht
      obtain ⟨t', ht', rfl⟩ := Option.map_eq_some_iff.mp hk
      exact h k t' ht'
    · -- there are two kinds, each with an entry or without
      obtain ⟨get?⟩ := r
      refine congrArg Registry.mk (funext fun k => ?_)
      rcases hsoap : get? .soap with _ | t <;> rcases hhttp : get? .http with _ | t' <;>
        cases k <;> simp [RequestKind.all, register, empty, hsoap, hhttp]

end Registry

/-! ## Fragments -/

namespace Fragment

/-- The properties that an element does not know, each time they are given. -/
def passedThrough (id : String) (known : List String) (kind : ElementKind) (ps : List Property) :
    List Event :=
  (ps.filter fun p => !known.contains p.key).map fun p => .unrecognisedProperty id p.key kind

/-- Each property that no one recognises is reported as it is passed on, and no element
is created. -/
theorem journal_copyProperties (id : String) (known : List String) (ps : List Property)
    (e : Element) :
    (copyProperties id known ps e).journal
      = (passedThrough id known e.kind ps).map .event := by
  induction ps generalizing e with
  | nil => rfl
  | cons p ps ih =>
    -- writing a property keeps the kind with which the later ones are noted
    have hrest := ih (e.withProperty p.key (.text p.value))
    rw [Element.kind_withProperty] at hrest
    rw [copyProperties, passedThrough, List.filter_cons]
    by_cases h : known.contains p.key = true
    · simp only [h, Bool.not_true, Bool.false_eq_true, if_false]
      exact hrest
    · rw [Bool.not_eq_true] at h
      simp only [h, Bool.not_false, if_true, List.map_cons]
      exact congrArg (JournalEntry.event (.unrecognisedProperty id p.key e.kind) :: ·) hrest

/-- An assertion element is created if the request asserts anything at all. -/
theorem journal_withAssertion (sampler : Element) (d : ElementDefaults) (q : Request) :
    (withAssertion sampler d q).journal
      = if q.assertions.isEmpty then [] else [.created .responseAssertion] := by
  rw [withAssertion, Logged.journal_bind, assertion?]
  by_cases h : q.assertions.isEmpty = true
  · rw [if_pos h, if_pos h]
    rfl
  · rw [if_neg h, if_neg h]
    rfl

/-- The kind of the sampler that requests of a kind become. -/
def samplerKind : RequestKind → ElementKind
  | .soap => .soapSampler
  | .http => .httpSampler

/-- The properties that it knows. -/
def knownKeys : RequestKind → List String
  | .soap => soapKeys
  | .http => httpKeys

/-- The properties of a request that its sampler does not know. -/
def unrecognised (q : Request) : List Event :=
  passedThrough q.id (knownKeys q.kind) (samplerKind q.kind) q.properties

/-- What a kind's own transformer notes of a request of the kind: the sampler,
the properties that it does not know, and the assertion if there is one. -/
theorem journal_forKind (d : ElementDefaults) (q : Request) :
    journal ((RequestTransformer.forKind q.kind).transform d q)
      = .created (samplerKind q.kind) :: ((unrecognised q).map .event
          ++ if q.assertions.isEmpty then [] else [.created .responseAssertion]) := by
  rcases q with r | r
  · show journal (ExceptT.lift (ofSoap d r)) = _
    rw [journal_lift, ofSoap, Logged.journal_bind, Logged.journal_bind, journal_withAssertion,
      applyProperties, journal_copyProperties]
    rfl
  · -- neither the method nor the parameters count as properties of the request
    have hkind : ((ensureMethod (d.newElement .httpSampler)).withName r.id).kind = .httpSampler :=
      kind_ensureMethod (d.newElement .httpSampler)
    show journal (ExceptT.lift (ofHttp d r)) = _
    rw [journal_lift, ofHttp, Logged.journal_bind, Logged.journal_bind, journal_withAssertion,
      applyProperties, journal_copyProperties]
    show _ :: (List.map JournalEntry.event (passedThrough r.id httpKeys
      ((ensureMethod (d.newElement .httpSampler)).withName r.id).kind r.properties) ++ _) = _
    rw [hkind]
    rfl

/-- A built-in transformer leaves no trace of a request that is not of its kind. -/
theorem journal_forKind_of_ne (d : ElementDefaults) {k : RequestKind} {q : Request}
    (hk : k ≠ q.kind) : journal ((RequestTransformer.forKind k).transform d q) = [] := by
  rcases q with r | r <;> rcases k with _ | _
  · exact absurd rfl hk
  · rfl
  · rfl
  · exact absurd rfl hk

end Fragment

/-! ## The layout -/

namespace SingleGroup

variable (s : SingleGroup) (d : ElementDefaults) (w : Workload)

/-- The scaffolding is created from the outside in, and the group is reported when it is
full. -/
theorem journal_assemble (ns : List Node) :
    (s.assemble d w ns).journal
      = .created .testPlan :: .created .threadGroup
        :: (if s.cookieManager then [.created .cookieManager] else [])
          ++ [.event (.threadGroupAssembled ns.length)] := by
  obtain ⟨name, group, cookie⟩ := s
  rcases cookie with _ | _ <;> rfl

variable {s d w} {r : Registry}

/-- The fragments come first in the journal of a layout, and the scaffolding behind
them. -/
theorem journal_layout_ok {ns : List Node} (h : outcome (r.fragments d w.requests) = .ok ns) :
    journal (s.layout r d w)
      = journal (r.fragments d w.requests) ++ (s.assemble d w ns).journal := by
  rw [layout, journal_bind_ok h, journal_lift]

/-- If a fragment fails, no scaffolding is begun. -/
theorem journal_layout_error {e : TransformError}
    (h : outcome (r.fragments d w.requests) = .error e) :
    journal (s.layout r d w) = journal (r.fragments d w.requests) := by
  rw [layout, journal_bind_error h]

end SingleGroup

/-! ## Chains -/

namespace Filter

variable (d : ElementDefaults) (w : Workload)

/-- The tree that filter number `i` of a chain is given; behind the last filter,
the tree that the chain makes. -/
def given (fs : List Filter) (t : Tree) (i : Nat) : Tree := (chain (fs.take i) d w t).value

@[simp] theorem given_zero (fs : List Filter) (t : Tree) : given d w fs t 0 = t := rfl

/-- Behind the first filter, the rest of the chain is given what that filter has left. -/
theorem given_cons_succ (f : Filter) (fs : List Filter) (t : Tree) (i : Nat) :
    given d w (f :: fs) t (i + 1) = given d w fs (f.apply d w t).value i := rfl

/-- What a filter behind the last one would be given is the tree of the whole chain. -/
theorem given_length (fs : List Filter) (t : Tree) :
    given d w fs t fs.length = (chain fs d w t).value := by
  rw [given, List.take_length]

/-- Filter number `i + 1` is given what filter number `i` makes of its tree. -/
theorem given_succ {fs : List Filter} {f : Filter} {i : Nat} (h : fs[i]? = some f) (t : Tree) :
    given d w fs t (i + 1) = (f.apply d w (given d w fs t i)).value := by
  -- the number counts down to the filter while the tree goes through the others
  induction fs generalizing t i with
  | nil => cases h
  | cons g fs ih =>
    cases i with
    | zero =>
      obtain rfl : g = f := by simpa using h
      rfl
    | succ i => exact ih h _

/-- A chain in two parts: the second part is run on what the first has made, and
its journal goes behind that of the first. -/
theorem chain_append (fs gs : List Filter) (t : Tree) :
    chain (fs ++ gs) d w t = chain fs d w t >>= chain gs d w := by
  induction fs generalizing t with
  | nil => exact (pure_bind t (chain gs d w)).symm
  | cons f fs ih =>
    have hrest : (fun t' => chain (fs ++ gs) d w t')
        = fun t' => chain fs d w t' >>= chain gs d w := funext ih
    show (f.step d w t >>= fun t' => chain (fs ++ gs) d w t') = _
    rw [hrest, ← bind_assoc]
    rfl

/-- A chain notes what its first filter notes, that this filter has been applied, with
the sizes before and after and the digest behind it, and then what the others note. -/
theorem journal_chain_cons (f : Filter) (fs : List Filter) (t : Tree) :
    (chain (f :: fs) d w t).journal
      = (f.apply d w t).journal
        ++ .event (.filterApplied f.name t.nodeCount (f.apply d w t).value.nodeCount
          (f.apply d w t).value.digest)
        :: (chain fs d w (f.apply d w t).value).journal := by
  have hstep : (f.step d w t).journal
      = (f.apply d w t).journal ++ [.event (.filterApplied f.name t.nodeCount
        (f.apply d w t).value.nodeCount (f.apply d w t).value.digest)] := rfl
  have hchain : (chain (f :: fs) d w t).journal
      = (f.step d w t).journal ++ (chain fs d w (f.apply d w t).value).journal := rfl
  rw [hchain, hstep, List.append_assoc, List.singleton_append]

/-- The journal of a chain: filter by filter what the filter itself notes, and
then that it has been applied. -/
theorem journal_chain (fs : List Filter) (t : Tree) :
    (chain fs d w t).journal
      = fs.zipIdx.flatMap fun v =>
        (v.1.apply d w (given d w fs t v.2)).journal
          ++ [.event (.filterApplied v.1.name (given d w fs t v.2).nodeCount
            (given d w fs t (v.2 + 1)).nodeCount (given d w fs t (v.2 + 1)).digest)] := by
  induction fs generalizing t with
  | nil => rfl
  | cons f fs ih =>
    -- behind the first filter the numbers are shifted by one, and so are the trees
    rw [journal_chain_cons, ih, List.zipIdx_cons, List.flatMap_cons, Nat.zero_add,
      List.zipIdx_succ, List.flatMap_map, List.append_assoc, List.singleton_append]
    rfl

end Filter

/-! ## Single filters -/

namespace Plan

section Filters

variable (d : ElementDefaults) (w : Workload)

/-- The creation of the header manager is all that is noted: it can always be
inserted, and a refusal never is. -/
theorem journal_headerDefaults (headers : Filter.Headers) (t : Tree) :
    ((Filter.headerDefaults headers).apply d w t).journal
      = if headers.isEmpty || t.isEmpty then [] else [.created .headerManager] := by
  show (if headers.isEmpty then pure _ else _ : Logged Tree).journal = _
  obtain ⟨root⟩ := t
  by_cases h : headers.isEmpty = true
  · rw [if_pos h, h]
    rfl
  · rw [Bool.not_eq_true] at h
    rw [h]
    rcases root with _ | n
    · rfl
    · rw [if_neg Bool.false_ne_true, show (⟨some n⟩ : Tree) = .ofNode n from rfl,
        Filter.scope?_ofNode]
      dsimp only
      rw [Logged.journal_bind, insert_scope]
      rfl

/-- A collector is created unless the tree is empty. -/
theorem journal_resultCollector (filename : Option String) (t : Tree) :
    ((Filter.resultCollector filename).apply d w t).journal
      = if t.isEmpty then [] else [.created .resultCollector] := by
  obtain ⟨root⟩ := t
  rcases root with _ | n <;> rfl

/-- A recording filter notes what it is given before it creates its marker. -/
theorem journal_recording (label : String) (t : Tree) :
    ((Fixture.recording label).apply d w t).journal
      = .observed (Fixture.observe label t)
        :: if t.isEmpty then [] else [.created .resultCollector] := by
  obtain ⟨root⟩ := t
  rcases root with _ | n <;> rfl

end Filters

/-! ## Chains with recorders -/

/-- A filter that a configuration can name, or one that records. -/
inductive Stage where
  | usual (spec : FilterSpec)
  | recorder (label : String)
  deriving DecidableEq

namespace Stage

/-- The filter that is meant. -/
def build : Stage → Filter
  | usual spec => spec.build
  | recorder label => Fixture.recording label

/-- The label of a recorder. -/
def label? : Stage → Option String
  | usual _ => none
  | recorder label => some label

/-- No configured filter empties a tree, and none fills an empty one. -/
theorem isEmpty_build (stage : Stage) (d : ElementDefaults) (w : Workload) (t : Tree) :
    (stage.build.apply d w t).value.isEmpty = t.isEmpty := by
  rcases stage with spec | label
  · rw [build, value_apply_eq]
    exact Option.isNone_map
  · obtain ⟨root⟩ := t
    rcases root with _ | n
    · rfl
    · rfl

end Stage

/-- Along a chain every filter is given an empty tree, or none is. -/
theorem isEmpty_given (d : ElementDefaults) (w : Workload) (stages : List Stage) (t : Tree)
    (i : Nat) : (Filter.given d w (stages.map Stage.build) t i).isEmpty = t.isEmpty := by
  induction stages generalizing t i with
  | nil => rw [List.map_nil, Filter.given, List.take_nil, Filter.chain, Logged.value_pure]
  | cons stage stages ih =>
    cases i with
    | zero => rw [Filter.given_zero]
    | succ i => rw [List.map_cons, Filter.given_cons_succ, ih, stage.isEmpty_build]

end Plan

/-! ## The whole run -/

namespace Plan

variable {layout : Layout} {r : Registry} {d : ElementDefaults} {w : Workload}

/-- A run without a list of filters is a run with no filters. -/
theorem transform_none : transform layout r d none w = transform layout r d (some []) w := rfl

/-- When the layout succeeds, so does the run, and its plan is the layout's tree as the
chain leaves it. -/
theorem outcome_transform_ok {t : Tree} (h : outcome (layout r d w) = .ok t)
    (filters : Option (List Filter)) :
    outcome (transform layout r d filters w)
      = .ok (Filter.chain (filters.getD []) d w t).value := by
  rcases filters with _ | fs
  · rw [transform_none, outcome_transform, h]
    rfl
  · rw [outcome_transform, h]
    rfl

/-- When the layout fails, the run fails with the same error, whatever the filters. -/
theorem outcome_transform_error {e : TransformError} (h : outcome (layout r d w) = .error e)
    (filters : Option (List Filter)) :
    outcome (transform layout r d filters w) = .error e := by
  rcases filters with _ | fs
  · rw [transform_none, outcome_transform, h]
    rfl
  · rw [outcome_transform, h]
    rfl

/-- A plan always comes from a tree that the layout has made. -/
theorem exists_layout_ok {filters : Option (List Filter)} {t : Tree}
    (h : outcome (transform layout r d filters w) = .ok t) :
    ∃ core, outcome (layout r d w) = .ok core
      ∧ (Filter.chain (filters.getD []) d w core).value = t := by
  rcases hlayout : outcome (layout r d w) with e | core
  · rw [outcome_transform_error hlayout] at h
    cases h
  · rw [outcome_transform_ok hlayout] at h
    exact ⟨core, rfl, Except.ok.inj h⟩

/-- Only the layout can make a run fail. -/
theorem layout_error {filters : Option (List Filter)} {e : TransformError}
    (h : outcome (transform layout r d filters w) = .error e) :
    outcome (layout r d w) = .error e := by
  rcases hlayout : outcome (layout r d w) with e' | core
  · rw [outcome_transform_error hlayout] at h
    rw [Except.error.inj h]
  · rw [outcome_transform_ok hlayout] at h
    cases h

/-- The journal of a run that succeeds: the announcement of the workload, the layout,
the filters, and the report on the plan. -/
theorem journal_transform_ok {t : Tree} (h : outcome (layout r d w) = .ok t)
    (filters : Option (List Filter)) :
    journal (transform layout r d filters w)
      = .event (.transformingWorkload w.name w.requests.length)
        :: (journal (layout r d w) ++ ((Filter.chain (filters.getD []) d w t).journal
          ++ [.event (.planBuilt w.name (Filter.chain (filters.getD []) d w t).value.nodeCount
            (filters.getD []).length)])) := by
  rw [transform, journal_bind_ok (outcome_lift _), journal_bind_ok h, journal_lift, journal_lift]
  rfl

/-- The journal of a run that fails ends with what the layout has noted. -/
theorem journal_transform_error {e : TransformError} (h : outcome (layout r d w) = .error e)
    (filters : Option (List Filter)) :
    journal (transform layout r d filters w)
      = .event (.transformingWorkload w.name w.requests.length) :: journal (layout r d w) := by
  rw [transform, journal_bind_ok (outcome_lift _), journal_bind_error h, journal_lift]
  rfl

end Plan

end LoadTest
