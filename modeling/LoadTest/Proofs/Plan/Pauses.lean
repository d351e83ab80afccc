/-
Whose pause a sampler gets.

The think-time filter finds the request of a sampler by the sampler's number
among the samplers, and if the request at that position has another name, by the
name. As long as every request becomes a sampler, numbers are positions. A
transformer may make something else of a request, and behind such a fragment the
numbers fall short of the positions. Then the request at the number may be
another one of the same name, and so may the first of the name.

`pauses_by_sampler_number` says which pause each fragment gets, and when it is
the pause of the request that the fragment was made from: if there are samplers
only in front of it, or if all requests of its name agree on their pause.
`sampler_waits_like_its_namesake` is a plan of two requests in which it is not.
-/
import LoadTest.Fixture.Doubles
import LoadTest.Proofs.Plan.ClosedForm

set_option autoImplicit false

namespace LoadTest

open Build
open LoadTest.Filter (pauseOf? requestOf? samplerCount forestSamplers timedNode timedForest
  dueTimers)

/-! ## Fragments -/

/-- A transformer of a kind's own, or one that takes any request and makes of it
a leaf that is no sampler and is named after it. -/
inductive RequestTransformer.Marking : RequestTransformer → Prop where
  | own (k : RequestKind) : Marking (.forKind k)
  | marker (t : RequestTransformer)
    (h : ∀ d q, ∃ e : Element, e.kind.isSampler = false ∧ e.name = q.id
      ∧ outcome (t.transform d q) = .ok (.leaf e)) : Marking t

namespace Fragment

theorem isSamplerOf_forKind {d : ElementDefaults} {q : Request} {n : Node}
    (h : outcome ((RequestTransformer.forKind q.kind).transform d q) = .ok n) :
    IsSamplerOf q n := by
  rcases q with r | r
  · rw [← Except.ok.inj h]
    exact isSamplerOf_ofSoap d r
  · rw [← Except.ok.inj h]
    exact isSamplerOf_ofHttp d r

end Fragment

open Fragment (IsSamplerOf)

theorem Registry.fragment_of_marking {r : Registry} {d : ElementDefaults}
    (hr : ∀ k t, r.get? k = some t → t.Marking) {q : Request} {n : Node}
    (h : outcome (r.transform d q) = .ok n) :
    IsSamplerOf q n ∨ ∃ e : Element, n = .leaf e ∧ e.kind.isSampler = false := by
  rcases ht : r.get? q.kind with _ | t
  · rw [transform, ht] at h
    cases h
  · rw [outcome_transform ht] at h
    rcases hr q.kind t ht with k | ⟨_, hmarker⟩
    · -- a kind's own transformer has succeeded, so the request is of the kind
      by_cases hk : k = q.kind
      · subst hk
        exact .inl (Fragment.isSamplerOf_forKind h)
      · rw [forKind_rejects d hk] at h
        cases h
    · obtain ⟨e, hkind, -, hout⟩ := hmarker d q
      rw [hout] at h
      exact .inr ⟨e, (Except.ok.inj h).symm, hkind⟩

/-! ## Requests by number and name -/

section Requests

variable {fallback : Option ThinkTime} {w : Workload} {q : Request}

theorem exists_requestOf? (hq : q ∈ w.requests) (k : Nat) :
    ∃ q' ∈ w.requests, q'.id = q.id ∧ requestOf? w k q.id = some q' := by
  rw [requestOf?]
  rcases hk : w.requests[k]?.filter fun q' => q'.id == q.id with _ | q'
  · -- by name: there is one, the request itself if no other
    obtain ⟨q', hq'⟩ : ∃ q', w.findRequest q.id = some q' := by
      rw [← Option.isSome_iff_exists, Workload.findRequest, List.find?_isSome]
      exact ⟨q, hq, beq_self_eq_true q.id⟩
    refine ⟨q', List.mem_of_find?_eq_some hq', ?_, by rw [hk]; exact hq'⟩
    simpa using List.find?_some hq'
  · obtain ⟨hget, hname⟩ := Option.filter_eq_some_iff.mp hk
    exact ⟨q', List.mem_of_getElem? hget, by simpa using hname, by rw [hk]; rfl⟩

/-- If all requests of a name agree on their pause, the number does not matter. -/
theorem pauseOf?_of_agree (hq : q ∈ w.requests)
    (hagree : ∀ q' ∈ w.requests, q'.id = q.id → q'.thinkTime = q.thinkTime) (k : Nat) :
    pauseOf? fallback w k q.id = (q.thinkTime <|> w.thinkTime <|> fallback) := by
  obtain ⟨q', hmem, hname, hfound⟩ := exists_requestOf? hq k
  rw [Filter.pauseOf?_eq hfound, hagree q' hmem hname]

end Requests

/-! ## Timers of fragments -/

namespace Plan

section Timed

variable (fallback : Option ThinkTime) (d : ElementDefaults) (w : Workload)

/-- The samplers get their timers, and the scaffolding stays as it is. -/
theorem value_thinkTime_plan (s : SingleGroup) (ns : List Node) :
    ((Filter.thinkTime fallback).apply d w (s.plan d w ns)).value
      = s.plan d w (timedForest fallback d w 0 ns) := by
  have hplan : (s.rename w (d.newElement .testPlan)).kind.isSampler = false := by
    rw [SingleGroup.kind_rename]
    rfl
  have hgroup : (s.group.apply (d.newElement .threadGroup)).kind.isSampler = false := rfl
  rw [Filter.value_thinkTime]
  show Tree.ofNode (timedNode fallback d w 0 _) = _
  rw [Filter.timedNode_of_not_sampler _ _ _ hplan, timedForest,
    Filter.timedNode_of_not_sampler _ _ _ hgroup, Filter.timedForest_append,
    Filter.timedForest_of_forestSamplers _ _ _ _ _ (forestSamplers_cookies d s),
    forestSamplers_cookies]
  rfl

/-- A sampler without samplers below it gets the timer of its number. -/
theorem timedNode_sampler {q : Request} {n : Node} (hn : IsSamplerOf q n) (k : Nat) :
    timedNode fallback d w k n
      = .mk n.element
        (n.children ++ ((pauseOf? fallback w k q.id).map (Filter.timer d)).toList) := by
  have hkind := hn.kind
  have hname := hn.name
  have hbelow := hn.forestSamplers
  obtain ⟨e, cs⟩ := n
  rw [Node.element_mk] at hkind hname
  rw [Node.children_mk] at hbelow
  rw [timedNode, Filter.timedForest_of_forestSamplers _ _ _ _ _ hbelow, dueTimers, if_pos hkind,
    hname, Node.element_mk, Node.children_mk]

end Timed

/-- As long as the fragments are samplers, their number is the position. -/
theorem forestSamplers_of_samplers {r : Registry} {d : ElementDefaults}
    (hr : ∀ k t, r.get? k = some t → t.Marking) {qs : List Request} {ns : List Node}
    (hns : List.Forall₂ (fun q n => outcome (r.transform d q) = .ok n) qs ns)
    (hsamplers : ∀ n ∈ ns, n.element.kind.isSampler = true) : forestSamplers ns = ns.length := by
  induction hns with
  | nil => rfl
  | @cons q n qs ns hn _ ih =>
    obtain ⟨hkind, hrest⟩ := List.forall_mem_cons.mp hsamplers
    have hcount : samplerCount n = 1 := by
      rcases Registry.fragment_of_marking hr hn with hsampler | ⟨e, rfl, he⟩
      · have hbelow := hsampler.forestSamplers
        obtain ⟨e, cs⟩ := n
        rw [Node.element_mk] at hkind
        rw [Node.children_mk] at hbelow
        rw [samplerCount, Filter.ownSampler, if_pos hkind, hbelow]
      · rw [Node.element_leaf, he] at hkind
        cases hkind
    rw [forestSamplers, hcount, ih hrest, List.length_cons, Nat.add_comm]

theorem pauseOf?_behind_samplers {r : Registry} {d : ElementDefaults} {w : Workload}
    (hr : ∀ k t, r.get? k = some t → t.Marking) {ns : List Node}
    (hns : List.Forall₂ (fun q n => outcome (r.transform d q) = .ok n) w.requests ns)
    {i : Nat} {q : Request} (hq : w.requests[i]? = some q)
    (hfront : ∀ n ∈ ns.take i, n.element.kind.isSampler = true) (fallback : Option ThinkTime) :
    pauseOf? fallback w (forestSamplers (ns.take i)) q.id
      = (q.thinkTime <|> w.thinkTime <|> fallback) := by
  have hi : i ≤ ns.length := by
    rw [← hns.length_eq]
    exact Nat.le_of_lt (List.getElem?_eq_some_iff.mp hq).1
  have hnumber : forestSamplers (ns.take i) = i := by
    rw [forestSamplers_of_samplers hr (List.forall₂_take i hns) hfront, List.length_take]
    exact Nat.min_eq_left hi
  -- at the number stands the request itself, whatever the names
  rw [hnumber]
  exact Filter.pauseOf?_eq (Filter.requestOf?_position hq)

/-- The fragments that are samplers, and no others, get a timer, if there is a
pause for them. It is the pause of a request of the same name, but not always of
the one that the fragment was made from: it depends on the number of samplers in
front of the fragment. It is the right one if there are samplers only in front of
it, or if all requests of the name agree. -/
theorem pauses_by_sampler_number (s : SingleGroup) (r : Registry)
    (hr : ∀ k t, r.get? k = some t → t.Marking) (d : ElementDefaults) (w : Workload)
    (fallback : Option ThinkTime) {t : Tree} (ht : outcome (s.layout r d w) = .ok t) :
    ∃ fragments timed,
      List.Forall₂ (fun q n => outcome (r.transform d q) = .ok n) w.requests fragments
      ∧ t = s.plan d w fragments
      ∧ ((Filter.thinkTime fallback).apply d w t).value = s.plan d w timed
      ∧ timed.length = fragments.length
      ∧ ∀ i q n, w.requests[i]? = some q → fragments[i]? = some n →
        (n.element.kind.isSampler = false → timed[i]? = some n)
        ∧ (n.element.kind.isSampler = true →
          let pause := pauseOf? fallback w (forestSamplers (fragments.take i)) q.id
          timed[i]?
              = some (.mk n.element (n.children ++ (pause.map (Filter.timer d)).toList))
            ∧ (∀ p, Filter.IsTimerOf d p (Filter.timer d p))
            ∧ (∀ c ∈ n.children, c.element.kind ≠ .gaussianRandomTimer)
            ∧ (∃ q' ∈ w.requests, q'.id = q.id
              ∧ pause = (q'.thinkTime <|> w.thinkTime <|> fallback))
            ∧ ((∀ m ∈ fragments.take i, m.element.kind.isSampler = true)
                ∨ (∀ q' ∈ w.requests, q'.id = q.id → q'.thinkTime = q.thinkTime) →
              pause = (q.thinkTime <|> w.thinkTime <|> fallback))) := by
  obtain ⟨ns, hns, rfl⟩ := (s.layout_ok_iff r d w t).mp ht
  have hfragments := (r.fragments_ok_iff d w.requests ns).mp hns
  refine ⟨ns, timedForest fallback d w 0 ns, hfragments, rfl,
    value_thinkTime_plan fallback d w s ns, Filter.length_timedForest fallback d w 0 ns, ?_⟩
  intro i q n hq hn
  have htimed := Filter.getElem?_timedForest fallback d w 0 ns i
  rw [hn, Option.map_some, Nat.zero_add] at htimed
  have hout : outcome (r.transform d q) = .ok n := by
    obtain ⟨hi, rfl⟩ := List.getElem?_eq_some_iff.mp hq
    obtain ⟨hi', rfl⟩ := List.getElem?_eq_some_iff.mp hn
    exact hfragments.get hi hi'
  rcases r.fragment_of_marking hr hout with hsampler | ⟨e, rfl, he⟩
  · have hmem := List.mem_of_getElem? hq
    rw [timedNode_sampler fallback d w hsampler] at htimed
    refine ⟨fun h => absurd hsampler.kind (by rw [h]; decide), fun _ => ?_⟩
    refine ⟨htimed, Filter.isTimerOf_timer d, ?_, ?_, ?_⟩
    · -- below a fragment there are assertions, so the timer is the only one
      intro c hc
      obtain ⟨e, he, rfl⟩ := hsampler.children c hc
      rw [Node.element_leaf, he]
      decide
    · obtain ⟨q', hq', hname, hfound⟩ := exists_requestOf? hmem (forestSamplers (ns.take i))
      exact ⟨q', hq', hname, Filter.pauseOf?_eq hfound⟩
    · rintro (hfront | hagree)
      · exact pauseOf?_behind_samplers hr hfragments hq hfront fallback
      · exact pauseOf?_of_agree hmem hagree _
  · -- the visit passes over what is no sampler
    rw [Filter.timedNode_of_samplerCount _ _ _ _ _ (Filter.samplerCount_leaf he)] at htimed
    exact ⟨fun _ => htimed, fun h => absurd h (by rw [Node.element_leaf, he]; decide)⟩

/-- An HTTP request that becomes a collector stands between two SOAP requests.
The number of the second sampler is the position of the HTTP request, which has
another name, so its own request is found by name. -/
theorem sampler_behind_marker_keeps_pause :
    let r := Registry.empty.registerAll
      [(.soap, .forKind .soap), (.http, Fixture.markerTransformer .http)]
    let q : Request := .soap ⟨"c", [], [], some ⟨3, 1⟩⟩
    let w : Workload := ⟨"w", [.soap (.new "a"), .http (.new "b"), q], some ⟨8, 0⟩⟩
    ∃ t, outcome (SingleGroup.standard.layout r .empty w) = .ok t
      ∧ (((Filter.thinkTime none).apply .empty w t).value.get? [0, 3]).map
          (fun n => (n.element.name, n.children))
        = some ("c", [Filter.timer .empty ⟨3, 1⟩]) := by
  intro r q w
  have hr : ∀ k t, r.get? k = some t → t.Marking := by
    rintro (_ | _) t ⟨⟩
    · exact .own .soap
    · exact .marker _ fun d q => ⟨_, rfl, rfl, rfl⟩
  have ht : outcome (SingleGroup.standard.layout r .empty w) = .ok _ := rfl
  obtain ⟨fragments, timed, hfragments, -, hvalue, -, hpauses⟩ :=
    pauses_by_sampler_number .standard r hr .empty w none ht
  obtain ⟨n₀, ns, -, hns, rfl⟩ := List.forall₂_cons_left_iff.mp hfragments
  obtain ⟨n₁, ns, -, hns', rfl⟩ := List.forall₂_cons_left_iff.mp hns
  obtain ⟨n, ns, hn, -, rfl⟩ := List.forall₂_cons_left_iff.mp hns'
  obtain rfl := Except.ok.inj hn
  obtain ⟨-, hsampler⟩ := hpauses 2 q _ rfl rfl
  obtain ⟨htimed, -, -, -, hown⟩ := hsampler rfl
  rw [hown (.inr (by decide))] at htimed
  -- the cookie manager stands in front of the fragments
  refine ⟨_, ht, ?_⟩
  rw [hvalue]
  show (timed[2]? >>= Node.get? []).map _ = _
  rw [htimed]
  rfl

/-- Both requests are called `a`. The HTTP request becomes a collector, so the
sampler of the SOAP request is the first, and it is given the pause of the HTTP
request at that position. -/
theorem sampler_waits_like_its_namesake :
    let r := Registry.empty.registerAll
      [(.soap, .forKind .soap), (.http, Fixture.markerTransformer .http)]
    let w : Workload := ⟨"m", [.http ⟨"a", [], [], [], some ⟨1, 0⟩⟩,
      .soap ⟨"a", [], [], some ⟨2, 0⟩⟩], none⟩
    (∀ k t, r.get? k = some t → t.Marking)
    ∧ ∃ t n, outcome (SingleGroup.standard.layout r .empty w) = .ok t
      ∧ ((Filter.thinkTime none).apply .empty w t).value.get? [0, 2] = some n
      ∧ n.element.kind = .soapSampler
      ∧ n.children.map (fun c => c.element.property? Filter.delayKey) = [some (.integer 1)] := by
  intro r w
  refine ⟨?_, _, _, rfl, rfl, rfl, rfl⟩
  rintro (_ | _) t ⟨⟩
  · exact .own .soap
  · exact .marker _ fun d q => ⟨_, rfl, rfl, rfl⟩

end Plan

end LoadTest
