/-
The fragments that the standard registry makes.

The standard registry knows every kind of request and makes a sampler of it,
named after the request, with nothing below it but at most one response
assertion. Writing the properties of a request changes neither the kind nor the
name of the element they are written onto.
-/
import LoadTest.Proofs.Plan.Dispatch

set_option autoImplicit false

namespace LoadTest

open Build

namespace Fragment

/-! ## Elements -/

/-- Each property is written under its key, the recognised ones and the others. -/
theorem value_copyProperties (id : String) (known : List String) (ps : List Property)
    (e : Element) :
    (copyProperties id known ps e).value
      = ps.foldl (fun e p => e.withProperty p.key (.text p.value)) e := by
  induction ps generalizing e with
  | nil => rfl
  | cons p ps ih =>
    rw [List.foldl_cons, ← ih, copyProperties]
    -- an unknown key is noted, which the value does not show
    by_cases h : known.contains p.key = true
    · rw [h]
      rfl
    · rw [Bool.not_eq_true] at h
      rw [h]
      rfl

/-- What writing one property keeps, writing many keeps. -/
theorem foldl_withProperty {β : Type} (f : Element → β)
    (hf : ∀ e k v, f (Element.withProperty e k v) = f e) (ps : List Property) (e : Element) :
    f (ps.foldl (fun e p => e.withProperty p.key (.text p.value)) e) = f e := by
  induction ps generalizing e with
  | nil => rfl
  | cons p ps ih => rw [List.foldl_cons, ih, hf]

/-- Writing properties keeps the kind, and the name is the request's. -/
theorem applyProperties_kind_name (e : Element) (id : String) (ps : List Property)
    (known : List String) :
    (applyProperties e id ps known).value.kind = e.kind
      ∧ (applyProperties e id ps known).value.name = id := by
  rw [applyProperties, value_copyProperties]
  exact ⟨foldl_withProperty Element.kind Element.kind_withProperty ps _,
    foldl_withProperty Element.name Element.name_withProperty ps _⟩

theorem kind_ensureMethod (e : Element) : (ensureMethod e).kind = e.kind := by
  rw [ensureMethod]
  by_cases h : e.hasProperty httpMethod = true
  · rw [if_pos h]
  · rw [if_neg h, Element.kind_withProperty]

theorem applyParameters_kind_name (e : Element) (ps : List Parameter) :
    (applyParameters e ps).kind = e.kind ∧ (applyParameters e ps).name = e.name := by
  rw [applyParameters]
  by_cases h : ps.isEmpty = true
  · rw [if_pos h]
    exact ⟨rfl, rfl⟩
  · rw [if_neg h]
    exact ⟨rfl, rfl⟩

/-! ## Nodes -/

/-- A sampler for a request: named after it, and with response assertions for
its only children. -/
structure IsSamplerOf (q : Request) (n : Node) : Prop where
  kind : n.element.kind.isSampler = true
  name : n.element.name = q.id
  children : ∀ c ∈ n.children, ∃ e : Element, e.kind = .responseAssertion ∧ c = .leaf e

/-- An assertion below a sampler leaves it the sampler of its request. -/
theorem isSamplerOf_withAssertion {q : Request} {sampler : Element} (d : ElementDefaults)
    (hkind : sampler.kind.isSampler = true) (hname : sampler.name = q.id) :
    IsSamplerOf q (withAssertion sampler d q).value := by
  refine ⟨hkind, hname, ?_⟩
  intro c hc
  have hc' : c ∈ (assertion? d q).value.toList.map Node.leaf := hc
  obtain ⟨e, he, rfl⟩ := List.mem_map.mp hc'
  refine ⟨e, ?_, rfl⟩
  rw [assertion?] at he
  by_cases h : q.assertions.isEmpty = true
  · rw [if_pos h] at he
    exact absurd he (by simp)
  · rw [if_neg h] at he
    rw [List.mem_singleton.mp he]
    rfl

/-- A SOAP request becomes a sampler of its own name. -/
theorem isSamplerOf_ofSoap (d : ElementDefaults) (r : SoapRequest) :
    IsSamplerOf (.soap r) (ofSoap d r).value := by
  obtain ⟨hkind, hname⟩ :=
    applyProperties_kind_name (d.newElement .soapSampler) r.id r.properties soapKeys
  refine isSamplerOf_withAssertion d ?_ hname
  show ElementKind.isSampler (applyProperties (d.newElement .soapSampler) _ _ _).value.kind = true
  rw [hkind]
  rfl

/-- An HTTP request becomes a sampler of its own name. -/
theorem isSamplerOf_ofHttp (d : ElementDefaults) (r : HttpRequest) :
    IsSamplerOf (.http r) (ofHttp d r).value := by
  obtain ⟨hkind, hname⟩ := applyProperties_kind_name (ensureMethod (d.newElement .httpSampler))
    r.id r.properties httpKeys
  obtain ⟨hkind', hname'⟩ := applyParameters_kind_name
    (applyProperties (ensureMethod (d.newElement .httpSampler)) r.id r.properties httpKeys).value
    r.parameters
  refine isSamplerOf_withAssertion d ?_ (hname'.trans hname)
  show ElementKind.isSampler (applyParameters
    (applyProperties (ensureMethod (d.newElement .httpSampler)) _ _ _).value _).kind = true
  rw [hkind', hkind, kind_ensureMethod]
  rfl

/-- The standard registry makes a sampler of every request. -/
theorem standard_transform (d : ElementDefaults) (q : Request) :
    ∃ n, outcome (Registry.standard.transform d q) = .ok n ∧ IsSamplerOf q n := by
  rw [Registry.outcome_transform (Registry.get?_standard q.kind)]
  rcases q with r | r
  · exact ⟨(ofSoap d r).value, rfl, isSamplerOf_ofSoap d r⟩
  · exact ⟨(ofHttp d r).value, rfl, isSamplerOf_ofHttp d r⟩

end Fragment

end LoadTest
