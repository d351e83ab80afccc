/-
Registries in which every transformer stands under its own kind.

A registry can be filled in a way that hands a request to the transformer of
another kind. Here the calls are those that cannot: a transformer is registered
under the kind that it is for (`RegistryCall`). What such calls leave is then known
from the calls alone. A stored transformer is for the kind it is stored under
(`Registry.kind_of_get?`), and a kind has none if it has not been registered since it
was removed last, or never (`Registry.get?_run_eq_none_iff`).

What a transformer does is its own affair, so one thing has to be asked of those that
are handed in: that they make a fragment of every request of their kind
(`RequestTransformer.Faithful`). The usual ones do. With it, the check of the request
that each transformer makes cannot fail any more.
-/
import LoadTest.Fixture.Doubles
import LoadTest.Proofs.History
import LoadTest.Proofs.Plan.Dispatch

set_option autoImplicit false

namespace LoadTest

open Build

/-- A transformer makes a fragment of every request of the kind it is for. -/
def RequestTransformer.Faithful (t : RequestTransformer) : Prop :=
  ∀ d q, q.kind = t.kind → ∃ n, outcome (t.transform d q) = .ok n

/-- The built-in transformers keep to the contract. -/
theorem RequestTransformer.faithful_forKind (k : RequestKind) : (forKind k).Faithful := by
  intro d q hq
  rw [kind_forKind] at hq
  rw [← hq]
  exact Registry.forKind_accepts d q

/-! ## Calls -/

/-- A call that changes a registry and keeps every transformer under its kind. -/
inductive RegistryCall where
  /-- Store a transformer under a kind that is the one it is for. -/
  | register (kind : RequestKind) (t : RequestTransformer) (h : t.kind = kind)
  /-- Store a transformer under the kind it is for. -/
  | registerTransformer (t : RequestTransformer)
  /-- Take the transformer of a kind out. -/
  | remove (kind : RequestKind)

namespace RegistryCall

/-- The kind whose transformer is changed. -/
def kind : RegistryCall → RequestKind
  | register k _ _ => k
  | registerTransformer t => t.kind
  | remove k => k

/-- The transformer that is stored. -/
def stored? : RegistryCall → Option RequestTransformer
  | register _ t _ => some t
  | registerTransformer t => some t
  | remove _ => none

/-- The answer of a registry to a call, and the registry behind it. -/
def perform (r : Registry) : RegistryCall → Option RequestTransformer × Registry
  | register k t _ => r.register k t
  | registerTransformer t => r.registerTransformer t
  | remove k => r.remove k

/-- The call registers a transformer for the kind. -/
def Registers (k : RequestKind) (x : RegistryCall) : Prop := x.kind = k ∧ x.stored? ≠ none

/-- The kind was not registered, or was removed after its last registration. -/
def Gone (xs : List RegistryCall) (k : RequestKind) : Prop :=
  (∀ x ∈ xs, ¬ x.Registers k)
    ∨ ∃ before after, xs = before ++ remove k :: after ∧ ∀ x ∈ after, ¬ x.Registers k

/-- What a call stores is stored under the kind that the call is about. -/
theorem kind_of_stored? {x : RegistryCall} {t : RequestTransformer} (h : x.stored? = some t) :
    t.kind = x.kind := by
  cases x with
  | register k t' hk =>
    cases h
    exact hk
  | registerTransformer t' =>
    cases h
    rfl
  | remove k => cases h

/-- A call that stores nothing removes something. -/
theorem eq_remove_of_stored? {x : RegistryCall} (h : x.stored? = none) : x = remove x.kind := by
  cases x with
  | register k t hk => cases h
  | registerTransformer t => cases h
  | remove k => rfl

end RegistryCall

namespace Registry

/-- Registries, as stores of transformers under kinds. -/
def store : KeyedStore Registry RegistryCall RequestKind RequestTransformer where
  get? := get?
  call := RegistryCall.perform
  key := RegistryCall.kind
  leaves := RegistryCall.stored?
  call_fst r x := by cases x <;> rfl
  get?_call r x k := by
    cases x <;> exact if_congr eq_comm rfl rfl

/-- The registry behind calls that are made one after another. -/
def run (r : Registry) (xs : List RegistryCall) : Registry := (store.run r xs).2

/-- The answers to calls that are made one after another. -/
def answers (r : Registry) (xs : List RegistryCall) : List (Option RequestTransformer) :=
  (store.run r xs).1

/-! ## Where registries come from -/

/-- What a registry starts from. -/
inductive Origin where
  /-- No transformer. -/
  | empty
  /-- Each kind's own transformer. -/
  | standard

/-- The registry to start with. -/
def Origin.registry : Origin → Registry
  | empty => .empty
  | standard => .standard

/-- The calls that have made the registry to start with. -/
def Origin.calls : Origin → List RegistryCall
  | empty => []
  | standard => RequestKind.all.map fun k =>
      .register k (.forKind k) (RequestTransformer.kind_forKind k)

/-- A registry to begin with is what its own registrations make of an empty one. -/
theorem Origin.run_calls (o : Origin) : Registry.empty.run o.calls = o.registry := by
  cases o with
  | empty => rfl
  | standard => rfl

/-- A registry that starts with transformers is one that starts with the calls for them. -/
theorem Origin.run_registry (o : Origin) (xs : List RegistryCall) :
    o.registry.run xs = Registry.empty.run (o.calls ++ xs) := by
  rw [← o.run_calls]
  exact (store.run_append_snd .empty o.calls xs).symm

theorem Origin.faithful_of_mem_calls {o : Origin} {x : RegistryCall} (hx : x ∈ o.calls)
    {t : RequestTransformer} (ht : x.stored? = some t) : t.Faithful := by
  cases o with
  | empty => cases hx
  | standard =>
    obtain ⟨k, -, rfl⟩ := List.mem_map.mp hx
    cases ht
    exact RequestTransformer.faithful_forKind k

/-! ## What is stored -/

variable (o : Origin) (xs : List RegistryCall)

/-- What is stored under a kind has been stored there by a call. -/
theorem exists_call {k : RequestKind} {t : RequestTransformer}
    (h : (o.registry.run xs).get? k = some t) :
    ∃ x ∈ o.calls ++ xs, x.kind = k ∧ x.stored? = some t := by
  rw [o.run_registry] at h
  obtain ⟨x, ⟨hkind, before, after, hxs, -⟩, hstored⟩ :=
    (KeyedStore.get?_run_eq_some_iff (K := store) rfl t).mp h
  exact ⟨x, hxs ▸ List.mem_append_right _ List.mem_cons_self, hkind, hstored⟩

/-- A transformer is stored under the kind it is for. -/
theorem kind_of_get? {k : RequestKind} {t : RequestTransformer}
    (h : (o.registry.run xs).get? k = some t) : t.kind = k := by
  obtain ⟨x, -, hkind, hstored⟩ := exists_call o xs h
  exact (RegistryCall.kind_of_stored? hstored).trans hkind

/-- If all that was ever registered keeps to the contract, so does what is found. -/
theorem faithful_of_get? (hxs : ∀ x ∈ xs, ∀ t, x.stored? = some t → t.Faithful)
    {k : RequestKind} {t : RequestTransformer} (h : (o.registry.run xs).get? k = some t) :
    t.Faithful := by
  obtain ⟨x, hx, -, hstored⟩ := exists_call o xs h
  rcases List.mem_append.mp hx with hx | hx
  · exact Origin.faithful_of_mem_calls hx hstored
  · exact hxs x hx t hstored

/-- No transformer is stored under a kind that is gone. -/
theorem get?_run_eq_none_iff (k : RequestKind) :
    (o.registry.run xs).get? k = none ↔ RegistryCall.Gone (o.calls ++ xs) k := by
  have hregisters (x : RegistryCall) : ¬ x.Registers k ↔ x.kind = k → x.stored? = none := by
    rw [RegistryCall.Registers, not_and, not_not]
  rw [o.run_registry]
  refine (KeyedStore.get?_run_eq_none_iff (K := store) rfl).trans ?_
  -- a call that stores nothing is the removal of its kind
  simp only [RegistryCall.Gone, hregisters]
  refine or_congr Iff.rfl ?_
  constructor
  · rintro ⟨before, x, after, hxs, rfl, hstored, hafter⟩
    rw [RegistryCall.eq_remove_of_stored? hstored] at hxs
    exact ⟨before, after, hxs, hafter⟩
  · rintro ⟨before, after, hxs, hafter⟩
    exact ⟨before, .remove k, after, hxs, rfl, rfl, hafter⟩

/-- The kinds of a registry are those under which something is found. -/
theorem mem_kinds {r : Registry} {k : RequestKind} : k ∈ r.kinds ↔ ∃ t, r.get? k = some t := by
  rw [kinds, List.mem_filter, and_iff_right k.mem_all, contains, Option.isSome_iff_exists]

/-! ## Dispatch -/

/-- A request of a kind that is gone is an error. -/
theorem outcome_transform_of_gone {q : Request} (hq : RegistryCall.Gone (o.calls ++ xs) q.kind)
    (d : ElementDefaults) :
    outcome ((o.registry.run xs).transform d q) = .error (.unregisteredKind q.id q.kind) := by
  rw [transform, (get?_run_eq_none_iff o xs q.kind).mpr hq]
  rfl

/-- Any other request is handed to a transformer of its kind. -/
theorem exists_outcome_transform {q : Request} (hq : ¬ RegistryCall.Gone (o.calls ++ xs) q.kind)
    (d : ElementDefaults) :
    ∃ t, (o.registry.run xs).get? q.kind = some t ∧ t.kind = q.kind
      ∧ outcome ((o.registry.run xs).transform d q) = outcome (t.transform d q) := by
  rw [← get?_run_eq_none_iff, ← Ne, Option.ne_none_iff_exists'] at hq
  obtain ⟨t, ht⟩ := hq
  exact ⟨t, ht, kind_of_get? o xs ht, outcome_transform ht d⟩

/-- Whatever calls have made a registry in which every transformer stands under its
own kind: the kinds are listed once and in declaration order, and every call answers
with the transformer from before. A request is an error if its kind was not
registered or was removed after its last registration, and is handed to a transformer
of its kind otherwise. If the transformers that have been handed in make a fragment of
every request of their kind, then this is the only error there is. -/
theorem dispatch_after_calls :
    (∀ k t, (o.registry.run xs).get? k = some t → t.kind = k)
    ∧ (o.registry.run xs).kinds.Nodup
    ∧ (o.registry.run xs).kinds.Sublist RequestKind.all
    ∧ (∀ k, k ∈ (o.registry.run xs).kinds ↔ ∃ t, (o.registry.run xs).get? k = some t)
    ∧ (∀ n : Nat, (o.registry.answers xs)[n]?
        = xs[n]?.map fun x => (o.registry.run (xs.take n)).get? x.kind)
    ∧ (∀ d q, RegistryCall.Gone (o.calls ++ xs) q.kind →
        outcome ((o.registry.run xs).transform d q) = .error (.unregisteredKind q.id q.kind))
    ∧ (∀ d q, ¬ RegistryCall.Gone (o.calls ++ xs) q.kind →
        ∃ t, (o.registry.run xs).get? q.kind = some t ∧ t.kind = q.kind
          ∧ outcome ((o.registry.run xs).transform d q) = outcome (t.transform d q))
    ∧ ((∀ x ∈ xs, ∀ t, x.stored? = some t → t.Faithful) → ∀ d q,
        (∀ id expected actual,
          outcome ((o.registry.run xs).transform d q) ≠ .error (.unexpectedKind id expected actual))
        ∧ (∀ e, outcome ((o.registry.run xs).transform d q) = .error e
          ↔ e = .unregisteredKind q.id q.kind ∧ RegistryCall.Gone (o.calls ++ xs) q.kind)
        ∧ ((∃ n, outcome ((o.registry.run xs).transform d q) = .ok n)
          ↔ ¬ RegistryCall.Gone (o.calls ++ xs) q.kind)) := by
  refine ⟨fun k t => kind_of_get? o xs, ?_, List.filter_sublist, fun k => mem_kinds,
    store.answer_run _ xs, fun d q hq => outcome_transform_of_gone o xs hq d,
    fun d q hq => exists_outcome_transform o xs hq d, fun hxs d q => ?_⟩
  · exact List.Nodup.sublist List.filter_sublist (by decide : RequestKind.all.Nodup)
  · by_cases hq : RegistryCall.Gone (o.calls ++ xs) q.kind
    · rw [outcome_transform_of_gone o xs hq d]
      refine ⟨fun id expected actual => nofun, fun e => ?_, nofun, fun h => absurd hq h⟩
      rw [and_iff_left hq, Except.error.injEq, eq_comm]
    · obtain ⟨t, ht, hkind, hout⟩ := exists_outcome_transform o xs hq d
      -- the transformer is for the kind of the request, so it makes a fragment
      obtain ⟨n, hn⟩ := faithful_of_get? o xs hxs ht d q hkind.symm
      rw [hout, hn]
      exact ⟨fun id expected actual => nofun, fun e => ⟨nofun, fun h => absurd h.2 hq⟩,
        fun _ => hq, fun _ => ⟨n, rfl⟩⟩

/-- The SOAP transformer is replaced and then removed, and the HTTP transformer
removed and then stored again. -/
theorem readded_kind_is_served :
    let xs : List RegistryCall :=
      [.register .soap (Fixture.markerTransformer .soap) rfl, .remove .http,
        .registerTransformer .http, .remove .soap]
    (∀ x ∈ xs, ∀ t, x.stored? = some t → t.Faithful)
    ∧ outcome ((Origin.standard.registry.run xs).transform .empty (.soap (.new "a")))
      = .error (.unregisteredKind "a" .soap)
    ∧ ∃ n, outcome ((Origin.standard.registry.run xs).transform .empty (.http (.new "b")))
      = .ok n := by
  intro xs
  have hfaithful : ∀ x ∈ xs, ∀ t, x.stored? = some t → t.Faithful := by
    intro x hx t ht
    simp only [xs, List.mem_cons, List.not_mem_nil, or_false] at hx
    rcases hx with rfl | rfl | rfl | rfl <;> cases ht
    · exact fun d q _ => ⟨_, rfl⟩
    · exact RequestTransformer.faithful_forKind .http
  obtain ⟨-, -, -, -, -, -, -, hdispatch⟩ := dispatch_after_calls .standard xs
  obtain ⟨-, hsoap, -⟩ := hdispatch hfaithful .empty (.soap (.new "a"))
  obtain ⟨-, -, hhttp⟩ := hdispatch hfaithful .empty (.http (.new "b"))
  have hgone : RegistryCall.Gone (Origin.standard.calls ++ xs) .soap :=
    (get?_run_eq_none_iff .standard xs .soap).mp rfl
  have hstored : ¬ RegistryCall.Gone (Origin.standard.calls ++ xs) .http := by
    rw [← get?_run_eq_none_iff]
    exact nofun
  exact ⟨hfaithful, (hsoap _).mpr ⟨rfl, hgone⟩, hhttp.mpr hstored⟩

end Registry

end LoadTest
