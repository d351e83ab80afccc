/-
Dispatch: which requests become fragments, and what the layout makes of them.

A registry may lack a transformer for a kind, and it may hold one kind's
transformer under the other. Either way the request is refused, and `Refuses`
says with which error. Everything follows from two facts. Handing over one
request fails exactly with the error with which it is refused
(`Registry.transform_error_iff`), and a run over many requests fails exactly
with the error of the first that fails, whatever comes after it
(`Registry.fragments_error_iff`). If none fails, there is one fragment per
request, in order, and the layout puts its scaffolding around them.
-/
import LoadTest.Fixture.Doubles
import LoadTest.Plan.Layout
import Mathlib.Algebra.Ring.Nat
import Mathlib.Data.List.Forall2

set_option autoImplicit false

namespace LoadTest

/-! ## Outcomes -/

namespace Build

variable {α β : Type}

/-- What a computation that may fail comes to, its journal put aside. -/
def outcome (m : Build α) : Except TransformError α := m.run.value

theorem outcome_lift (m : Logged α) : outcome (ExceptT.lift m) = .ok m.value := rfl

/-- A failure of the first computation is the failure of both. -/
theorem outcome_bind (m : Build α) (f : α → Build β) :
    outcome (m >>= f) = outcome m >>= fun a => outcome (f a) := by
  show (m.run >>= ExceptT.bindCont f).value = m.run.value >>= fun a => outcome (f a)
  rw [Logged.value_bind]
  rcases m.run.value with e | a
  · rfl
  · rfl

end Build

open Build

/-! ## One request -/

/-- A transformer of a kind's own, or one that makes a fragment of any request. -/
inductive RequestTransformer.Known : RequestTransformer → Prop where
  | own (k : RequestKind) : Known (.forKind k)
  | acceptsAny (t : RequestTransformer) (h : ∀ d q, ∃ n, outcome (t.transform d q) = .ok n) :
    Known t

namespace Registry

/-- A registry to which known transformers have been added one after another,
each under any kind. -/
def Filled (r : Registry) : Prop :=
  ∃ ts : List (RequestKind × RequestTransformer), (∀ t ∈ ts, t.2.Known) ∧ r = empty.registerAll ts

/-- The error with which a registry refuses a request. -/
inductive Refuses (r : Registry) (q : Request) : TransformError → Prop where
  /-- Nothing is registered for the kind of the request. -/
  | unregistered (h : r.get? q.kind = none) : Refuses r q (.unregisteredKind q.id q.kind)
  /-- What is registered is the other kind's own transformer. -/
  | unexpected (k : RequestKind) (h : r.get? q.kind = some (.forKind k)) (hk : k ≠ q.kind) :
    Refuses r q (.unexpectedKind q.id k q.kind)

/-- What stands in a registry was there before or has been added. -/
theorem get?_registerAll {r : Registry} {ts : List (RequestKind × RequestTransformer)}
    {k : RequestKind} {t : RequestTransformer} (h : (r.registerAll ts).get? k = some t) :
    r.get? k = some t ∨ (k, t) ∈ ts := by
  induction ts generalizing r with
  | nil => exact .inl h
  | cons t' ts ih =>
    rcases ih h with hr | hts
    · -- not stored by the rest: it is the first entry or was there before
      have hr' : (if k = t'.1 then some t'.2 else r.get? k) = some t := hr
      by_cases hk : k = t'.1
      · rw [if_pos hk] at hr'
        have ht : (k, t) = t' := by rw [hk, ← Option.some.inj hr']
        exact .inr (ht ▸ List.mem_cons_self)
      · rw [if_neg hk] at hr'
        exact .inl hr'
    · exact .inr (List.mem_cons_of_mem _ hts)

theorem Filled.known {r : Registry} (hr : r.Filled) {k : RequestKind} {t : RequestTransformer}
    (h : r.get? k = some t) : t.Known := by
  obtain ⟨ts, hts, rfl⟩ := hr
  rcases get?_registerAll h with hempty | hmem
  · exact absurd hempty (by simp [empty])
  · exact hts _ hmem

/-- A kind's own transformer accepts the requests of the kind. -/
theorem forKind_accepts (d : ElementDefaults) (q : Request) :
    ∃ n, outcome ((RequestTransformer.forKind q.kind).transform d q) = .ok n := by
  rcases q with s | h
  · exact ⟨(Fragment.ofSoap d s).value, rfl⟩
  · exact ⟨(Fragment.ofHttp d h).value, rfl⟩

/-- A kind's own transformer rejects the requests of the other kind, and names
both kinds. -/
theorem forKind_rejects (d : ElementDefaults) {k : RequestKind} {q : Request} (hk : k ≠ q.kind) :
    outcome ((RequestTransformer.forKind k).transform d q)
      = .error (.unexpectedKind q.id k q.kind) := by
  rcases q with s | h <;> rcases k with _ | _
  · exact absurd rfl hk
  · rfl
  · rfl
  · exact absurd rfl hk

/-- A request goes to the transformer of its kind. -/
theorem outcome_transform {r : Registry} {q : Request} {t : RequestTransformer}
    (h : r.get? q.kind = some t) (d : ElementDefaults) :
    outcome (r.transform d q) = outcome (t.transform d q) := by
  rw [transform, h]
  rfl

/-- Handing over a request fails exactly with the error with which the registry
refuses it. -/
theorem transform_error_iff {r : Registry} (hr : r.Filled) (d : ElementDefaults) (q : Request)
    (e : TransformError) : outcome (r.transform d q) = .error e ↔ r.Refuses q e := by
  constructor
  · intro h
    rcases ht : r.get? q.kind with _ | t
    · rw [transform, ht] at h
      rw [← Except.error.inj h]
      exact .unregistered ht
    · rw [outcome_transform ht] at h
      have hknown : t.Known := hr.known ht
      rcases hknown with k | ⟨_, hany⟩
      · -- a kind's own transformer has failed, so it is the other kind's
        by_cases hk : k = q.kind
        · obtain ⟨n, hn⟩ := forKind_accepts d q
          rw [hk, hn] at h
          cases h
        · rw [forKind_rejects d hk] at h
          rw [← Except.error.inj h]
          exact .unexpected k ht hk
      · obtain ⟨n, hn⟩ := hany d q
        rw [hn] at h
        cases h
  · rintro (ht | ⟨k, ht, hk⟩)
    · rw [transform, ht]
      rfl
    · rw [outcome_transform ht, forKind_rejects d hk]

/-! ## Many requests -/

/-- Fragments are made in order, one per request. -/
theorem outcome_fragments_cons (r : Registry) (d : ElementDefaults) (q : Request)
    (qs : List Request) :
    outcome (r.fragments d (q :: qs))
      = outcome (r.transform d q) >>= fun n => (outcome (r.fragments d qs)).map (n :: ·) := by
  rw [fragments, outcome_bind]
  rcases outcome (r.transform d q) with e | n
  · rfl
  · show outcome (r.fragments d qs >>= fun ns => pure (n :: ns)) = _
    rw [outcome_bind]
    rcases outcome (r.fragments d qs) with e | ns
    · rfl
    · rfl

/-- A run succeeds exactly if every hand-over does, with one fragment per request
in order. -/
theorem fragments_ok_iff (r : Registry) (d : ElementDefaults) (qs : List Request)
    (ns : List Node) :
    outcome (r.fragments d qs) = .ok ns
      ↔ List.Forall₂ (fun q n => outcome (r.transform d q) = .ok n) qs ns := by
  induction qs generalizing ns with
  | nil =>
    rw [List.forall₂_nil_left_iff]
    constructor
    · intro h
      exact (Except.ok.inj h).symm
    · rintro rfl
      rfl
  | cons q qs ih =>
    rw [outcome_fragments_cons, List.forall₂_cons_left_iff]
    rcases hq : outcome (r.transform d q) with e | n
    · constructor
      · intro h
        cases h
      · rintro ⟨n, ns', h, -, -⟩
        cases h
    · rcases hqs : outcome (r.fragments d qs) with e | ns'
      · constructor
        · intro h
          cases h
        · rintro ⟨n', ns', -, hns', -⟩
          rw [← ih, hqs] at hns'
          cases hns'
      · constructor
        · intro h
          exact ⟨n, ns', rfl, (ih ns').mp hqs, (Except.ok.inj h).symm⟩
        · rintro ⟨n', ns'', hn, hns, rfl⟩
          rw [← ih, hqs] at hns
          rw [← Except.ok.inj hn, ← Except.ok.inj hns]
          rfl

/-- A run fails exactly with the error of the first request whose hand-over
fails. The requests behind it do not count. -/
theorem fragments_error_iff (r : Registry) (d : ElementDefaults) (qs : List Request)
    (e : TransformError) :
    outcome (r.fragments d qs) = .error e
      ↔ ∃ pre q post, qs = pre ++ q :: post
        ∧ (∀ q' ∈ pre, ∀ e', outcome (r.transform d q') ≠ .error e')
        ∧ outcome (r.transform d q) = .error e := by
  induction qs with
  | nil =>
    constructor
    · intro h
      cases h
    · rintro ⟨pre, q, post, h, -, -⟩
      exact absurd h (by simp)
  | cons q qs ih =>
    rw [outcome_fragments_cons]
    simp only [List.cons_eq_append_iff]
    rcases hq : outcome (r.transform d q) with e' | n
    · constructor
      · intro h
        have he : e' = e := Except.error.inj h
        exact ⟨[], q, qs, .inl ⟨rfl, rfl⟩, nofun, by rw [hq, he]⟩
      · -- the first request fails, so none can stand in front of the one that failed first
        rintro ⟨pre, q', post, ⟨rfl, hsplit⟩ | ⟨pre', rfl, -⟩, hpre, he⟩
        · rw [(List.cons.inj hsplit).1, hq] at he
          exact congrArg Except.error (Except.error.inj he)
        · exact absurd hq (hpre q List.mem_cons_self e')
    · have hrest : (outcome (r.fragments d qs)).map (n :: ·) = .error e
          ↔ outcome (r.fragments d qs) = .error e := by
        rcases outcome (r.fragments d qs) with e' | ns
        · exact ⟨fun h => congrArg _ (Except.error.inj h), fun h => congrArg _ (Except.error.inj h)⟩
        · exact ⟨nofun, nofun⟩
      -- the first request succeeds, so the one that failed first is among the others
      refine hrest.trans (ih.trans ?_)
      constructor
      · rintro ⟨pre, q', post, hsplit, hpre, he⟩
        refine ⟨q :: pre, q', post, .inr ⟨pre, rfl, hsplit⟩, ?_, he⟩
        intro p hp e'
        rcases List.mem_cons.mp hp with rfl | hp
        · rw [hq]
          nofun
        · exact hpre p hp e'
      · rintro ⟨pre, q', post, ⟨rfl, hsplit⟩ | ⟨pre', rfl, hsplit⟩, hpre, he⟩
        · rw [(List.cons.inj hsplit).1, hq] at he
          cases he
        · exact ⟨pre', q', post, hsplit, fun p hp => hpre p (List.mem_cons_of_mem _ hp), he⟩

/-- A run fails exactly if some hand-over does. -/
theorem fragments_fails_iff (r : Registry) (d : ElementDefaults) (qs : List Request) :
    (∃ e, outcome (r.fragments d qs) = .error e)
      ↔ ∃ q ∈ qs, ∃ e, outcome (r.transform d q) = .error e := by
  constructor
  · rintro ⟨e, he⟩
    obtain ⟨pre, q, post, rfl, -, hq⟩ := (r.fragments_error_iff d qs e).mp he
    exact ⟨q, List.mem_append_right _ List.mem_cons_self, e, hq⟩
  · rintro ⟨q, hq, e, he⟩
    induction qs with
    | nil => exact absurd hq List.not_mem_nil
    | cons q' qs ih =>
      rw [outcome_fragments_cons]
      rcases hq' : outcome (r.transform d q') with e' | n
      · exact ⟨e', rfl⟩
      · -- the failing request is not the first, which has just succeeded
        rcases List.mem_cons.mp hq with rfl | hqs
        · rw [he] at hq'
          cases hq'
        · obtain ⟨e', he'⟩ := ih hqs
          exact ⟨e', by rw [he']; rfl⟩

end Registry

/-! ## The layout -/

namespace SingleGroup

/-- The children of the thread group that stand in front of the fragments. -/
def cookies (s : SingleGroup) (d : ElementDefaults) : List Node :=
  if s.cookieManager then [.leaf (d.newElement .cookieManager)] else []

/-- The plan around finished fragments, written out. -/
def plan (s : SingleGroup) (d : ElementDefaults) (w : Workload) (fragments : List Node) : Tree :=
  .ofNode (.mk (s.rename w (d.newElement .testPlan))
    [.mk (s.group.apply (d.newElement .threadGroup)) (s.cookies d ++ fragments)])

/-- The tree of the scaffolding does not depend on what is noted on the way. -/
theorem value_assemble (s : SingleGroup) (d : ElementDefaults) (w : Workload)
    (fragments : List Node) : (s.assemble d w fragments).value = s.plan d w fragments := by
  obtain ⟨name, group, cookie⟩ := s
  rcases cookie with _ | _ <;> rfl

theorem kind_rename (s : SingleGroup) (w : Workload) (e : Element) :
    (s.rename w e).kind = e.kind := by
  rw [rename]
  rcases s.planName with _ | name
  · by_cases h : w.name.isEmpty = true
    · simp [h]
    · simp [h]
  · rfl

/-- Plan, thread group and cookie manager are one node each. -/
theorem nodeCount_plan (s : SingleGroup) (d : ElementDefaults) (w : Workload)
    (fragments : List Node) :
    (s.plan d w fragments).nodeCount
      = 2 + (if s.cookieManager then 1 else 0) + (fragments.map Node.nodeCount).sum := by
  have hcookies : Node.forestCount (s.cookies d) = if s.cookieManager then 1 else 0 := by
    rw [cookies]
    by_cases h : s.cookieManager = true
    · rw [if_pos h, if_pos h]
      rfl
    · rw [if_neg h, if_neg h]
      rfl
  have hsum : Node.forestCount fragments = (fragments.map Node.nodeCount).sum := by
    induction fragments with
    | nil => rfl
    | cons n ns ih => rw [Node.forestCount, ih, List.map_cons, List.sum_cons]
  show Node.forestCount [.mk _ (s.cookies d ++ fragments)] + 1 = _
  rw [Node.forestCount, Node.nodeCount, Node.forestCount, Node.forestCount_append, hcookies, hsum]
  omega

/-- The layout comes to what the run over the requests comes to, with the
scaffolding put around the fragments. -/
theorem outcome_layout (s : SingleGroup) (r : Registry) (d : ElementDefaults) (w : Workload) :
    outcome (s.layout r d w) = (outcome (r.fragments d w.requests)).map (s.plan d w) := by
  rw [layout, outcome_bind]
  rcases outcome (r.fragments d w.requests) with e | ns
  · rfl
  · exact congrArg Except.ok (s.value_assemble d w ns)

/-- A layout fails exactly if one of its fragments does, and with the same error. -/
theorem layout_error_iff (s : SingleGroup) (r : Registry) (d : ElementDefaults) (w : Workload)
    (e : TransformError) :
    outcome (s.layout r d w) = .error e ↔ outcome (r.fragments d w.requests) = .error e := by
  rw [outcome_layout]
  rcases outcome (r.fragments d w.requests) with e' | ns
  · rw [Except.map, Except.error.injEq, Except.error.injEq]
  · exact ⟨nofun, nofun⟩

/-- A layout succeeds exactly if all its fragments do, and puts the scaffolding around
them. -/
theorem layout_ok_iff (s : SingleGroup) (r : Registry) (d : ElementDefaults) (w : Workload)
    (t : Tree) :
    outcome (s.layout r d w) = .ok t
      ↔ ∃ ns, outcome (r.fragments d w.requests) = .ok ns ∧ s.plan d w ns = t := by
  rw [outcome_layout]
  rcases outcome (r.fragments d w.requests) with e | ns
  · exact ⟨nofun, nofun⟩
  · constructor
    · intro h
      exact ⟨ns, rfl, Except.ok.inj h⟩
    · rintro ⟨ns', hns, rfl⟩
      rw [Except.ok.inj hns]
      rfl

/-- The layout fails exactly if some request is refused, and then with the error
of the first one that is. Otherwise the plan holds one fragment per request, in
order and behind the cookie manager, and nothing else. -/
theorem layout_dispatch (s : SingleGroup) (d : ElementDefaults) (w : Workload) (r : Registry)
    (hr : r.Filled) :
    ((∃ e, outcome (s.layout r d w) = .error e) ↔ ∃ q ∈ w.requests, ∃ e, r.Refuses q e)
    ∧ (∀ e, outcome (s.layout r d w) = .error e ↔
      ∃ pre q post, w.requests = pre ++ q :: post
        ∧ (∀ q' ∈ pre, ∀ e', ¬ r.Refuses q' e') ∧ r.Refuses q e)
    ∧ ((∀ q ∈ w.requests, ∀ e, ¬ r.Refuses q e) →
      ∃ fragments, List.Forall₂ (fun q n => outcome (r.transform d q) = .ok n) w.requests fragments
        ∧ outcome (s.layout r d w) = .ok (s.plan d w fragments)
        ∧ (s.plan d w fragments).nodeCount
          = 2 + (if s.cookieManager then 1 else 0) + (fragments.map Node.nodeCount).sum)
    ∧ (s.rename w (d.newElement .testPlan)).kind = .testPlan
    ∧ (s.group.apply (d.newElement .threadGroup)).kind = .threadGroup
    ∧ (s.cookies d).map (fun n => n.element.kind)
      = if s.cookieManager then [.cookieManager] else [] := by
  -- a refused request is one whose hand-over fails, so runs can be spoken of instead
  have hrefuses : ∀ q e, r.Refuses q e ↔ outcome (r.transform d q) = .error e :=
    fun q e => (r.transform_error_iff hr d q e).symm
  have hfirst : ∀ e, outcome (s.layout r d w) = .error e ↔
      ∃ pre q post, w.requests = pre ++ q :: post
        ∧ (∀ q' ∈ pre, ∀ e', ¬ r.Refuses q' e') ∧ r.Refuses q e := by
    intro e
    simp only [hrefuses]
    exact (s.layout_error_iff r d w e).trans (r.fragments_error_iff d w.requests e)
  have hfails : (∃ e, outcome (s.layout r d w) = .error e)
      ↔ ∃ q ∈ w.requests, ∃ e, r.Refuses q e := by
    simp only [hrefuses, s.layout_error_iff r d w]
    exact r.fragments_fails_iff d w.requests
  refine ⟨hfails, hfirst, ?_, ?_, rfl, ?_⟩
  · intro h
    have hrun : ∃ fragments, outcome (r.fragments d w.requests) = .ok fragments := by
      rcases hns : outcome (r.fragments d w.requests) with e | fragments
      · obtain ⟨q, hq, e', he'⟩ := hfails.mp ⟨e, (s.layout_error_iff r d w e).mpr hns⟩
        exact absurd he' (h q hq e')
      · exact ⟨fragments, rfl⟩
    obtain ⟨fragments, hrun⟩ := hrun
    refine ⟨fragments, (r.fragments_ok_iff d w.requests fragments).mp hrun, ?_,
      s.nodeCount_plan d w fragments⟩
    rw [outcome_layout, hrun]
    rfl
  · rw [kind_rename]
    rfl
  · rw [cookies]
    by_cases h : s.cookieManager = true
    · rw [if_pos h, if_pos h]
      rfl
    · rw [if_neg h, if_neg h]
      rfl

/-- The HTTP requests are handed to the SOAP transformer, and the first of them
stops the build. A workload without HTTP requests becomes a plan. -/
theorem first_misdirected_request_stops :
    let r := Registry.empty.registerAll
      [(.soap, Fixture.markerTransformer .soap), (.http, .forKind .soap)]
    let w : Workload := ⟨"w", [.soap (.new "a"), .http (.new "b"), .http (.new "c")], none⟩
    let w' : Workload := ⟨"w", [.soap (.new "a")], none⟩
    r.Filled
    ∧ outcome (standard.layout r .empty w) = .error (.unexpectedKind "b" .soap .http)
    ∧ ∃ t, outcome (standard.layout r .empty w') = .ok t ∧ t.nodeCount = 4 := by
  intro r w w'
  have hr : r.Filled := by
    refine ⟨_, ?_, rfl⟩
    intro t ht
    rcases List.mem_pair.mp ht with rfl | rfl
    · exact .acceptsAny _ fun d q => ⟨_, rfl⟩
    · exact .own .soap
  -- the marker transformer takes any request, so no SOAP request is refused
  have hsoap : ∀ q, q.kind = .soap → ∀ e, ¬ r.Refuses q e := by
    rintro q hq e he
    obtain ⟨n, hn⟩ : ∃ n, outcome (r.transform .empty q) = .ok n := by
      rw [Registry.outcome_transform (t := Fixture.markerTransformer .soap) (by rw [hq]; rfl)]
      exact ⟨_, rfl⟩
    rw [(r.transform_error_iff hr .empty q e).mpr he] at hn
    cases hn
  refine ⟨hr, ?_, ?_⟩
  · refine ((layout_dispatch standard .empty w r hr).2.1 _).mpr ?_
    refine ⟨[.soap (.new "a")], .http (.new "b"), [.http (.new "c")], rfl, ?_, ?_⟩
    · intro q hq
      rw [List.mem_singleton] at hq
      exact hsoap q (by rw [hq]; rfl)
    · exact .unexpected .soap rfl (by decide)
  · obtain ⟨fragments, hfragments, hout, hcount⟩ :=
      (layout_dispatch standard .empty w' r hr).2.2.1 (by
        intro q hq
        rw [List.mem_singleton] at hq
        exact hsoap q (by rw [hq]; rfl))
    -- one request, one fragment, and that is a single node
    obtain ⟨n, ns, hn, hns, rfl⟩ := List.forall₂_cons_left_iff.mp hfragments
    rw [List.forall₂_nil_left_iff] at hns
    refine ⟨_, hout, hcount.trans ?_⟩
    rw [← Except.ok.inj hn, hns]
    rfl

end SingleGroup

end LoadTest
