/-
What a fragment holds, and what comes first when its sources disagree.

Five writers set the properties of a sampler one after another: the defaults of
its kind, the method that an HTTP sampler needs, the request's properties with
their repeated keys, the table of parameters, and on the response assertion its
own settings. Each is a list of writes onto the same map, so the sampler is the
defaults with one long list written onto them, and `Element.Layered` reads off
what is left under each key and in which order the keys stand. No assumption is
made about the keys: a request may give the key of the arguments or of the method,
and the defaults may have any of them.
-/
import LoadTest.Proofs.Element.Writes
import LoadTest.Proofs.Plan.Fragment

set_option autoImplicit false

namespace LoadTest

namespace Fragment

/-! ## Writers -/

/-- The properties of a request as writes. -/
def given (ps : List Property) : List (String × PropertyValue) :=
  ps.map fun p => (p.key, .text p.value)

/-- The parameters of a request as a write; none without parameters. -/
def arguments (ps : List Parameter) : List (String × PropertyValue) :=
  if ps.isEmpty then [] else [(httpArguments, .table (ps.map fun p => (p.name, p.value)))]

/-- The settings of a response assertion as writes. -/
def settings (ps : List Assertion) : List (String × PropertyValue) :=
  [(testField, .text "Assertion.response_data"), (testType, .integer 16),
    (testStrings, .list (ps.map Assertion.pattern))]

/-- The given properties are inserted one after the other, whether they are recognised
or not. -/
theorem properties_applyProperties (e : Element) (id : String) (ps : List Property)
    (known : List String) :
    (applyProperties e id ps known).value.properties = e.properties.insertAll (given ps) := by
  rw [applyProperties, value_copyProperties]
  show _ = (e.withName id).properties.insertAll (given ps)
  -- every property is one more write, whatever has been written before
  induction ps generalizing e with
  | nil => rfl
  | cons p ps ih =>
    rw [List.foldl_cons, given, List.map_cons, OrderedMap.insertAll_cons]
    exact ih ((e.withName id).withProperty p.key (.text p.value))

/-- The method is written where there is none yet. -/
theorem properties_ensureMethod (e : Element) :
    (ensureMethod e).properties = e.properties.insertAll
      ([(httpMethod, .text defaultHttpMethod)].filter fun w => !e.properties.contains w.1) := by
  rw [ensureMethod, Element.hasProperty]
  by_cases h : e.properties.contains httpMethod = true
  · rw [if_pos h, List.filter_cons_of_neg (by simpa using h)]
    rfl
  · rw [if_neg h, List.filter_cons_of_pos (by simpa using h)]
    rfl

/-- The parameters are inserted as one table, if there are any. -/
theorem properties_applyParameters (e : Element) (ps : List Parameter) :
    (applyParameters e ps).properties = e.properties.insertAll (arguments ps) := by
  rw [applyParameters, arguments]
  by_cases h : ps.isEmpty = true
  · rw [if_pos h, if_pos h]
    rfl
  · rw [if_neg h, if_neg h]
    rfl

/-! ## Samplers -/

/-- A SOAP sampler holds its defaults, and what the request gives over them. -/
theorem layered_ofSoap (d : ElementDefaults) (r : SoapRequest) :
    (ofSoap d r).value.element.Layered (d.propertiesOf .soapSampler) [] (given r.properties) [] := by
  refine Element.layered_of_writes ?_
  show (applyProperties (d.newElement .soapSampler) r.id r.properties soapKeys).value.properties = _
  rw [properties_applyProperties, d.properties_newElement, List.append_nil]
  rfl

/-- An HTTP sampler holds its defaults, a method if it has none, what the request gives,
and the table of its parameters over all of these. -/
theorem layered_ofHttp (d : ElementDefaults) (r : HttpRequest) :
    (ofHttp d r).value.element.Layered (d.propertiesOf .httpSampler)
      [(httpMethod, .text defaultHttpMethod)] (given r.properties) (arguments r.parameters) := by
  refine Element.layered_of_writes ?_
  show (applyParameters (applyProperties (ensureMethod (d.newElement .httpSampler)) r.id
    r.properties httpKeys).value r.parameters).properties = _
  rw [properties_applyParameters, properties_applyProperties, properties_ensureMethod,
    d.properties_newElement, OrderedMap.insertAll_append, OrderedMap.insertAll_append]

theorem kind_ofSoap (d : ElementDefaults) (r : SoapRequest) :
    (ofSoap d r).value.element.kind = .soapSampler :=
  (applyProperties_kind_name (d.newElement .soapSampler) r.id r.properties soapKeys).1

theorem kind_ofHttp (d : ElementDefaults) (r : HttpRequest) :
    (ofHttp d r).value.element.kind = .httpSampler := by
  refine (applyParameters_kind_name _ r.parameters).1.trans ?_
  refine (applyProperties_kind_name _ r.id r.properties httpKeys).1.trans ?_
  rw [kind_ensureMethod]
  rfl

/-! ## Response assertions -/

/-- The nodes below the sampler of a request with given patterns: none without
patterns, and otherwise one response assertion for all of them. -/
inductive Asserted (d : ElementDefaults) : List Assertion → List Node → Prop where
  | none : Asserted d [] []
  | one {ps : List Assertion} {a : Element} (hps : ps ≠ []) (hkind : a.kind = .responseAssertion)
      (hname : a.name = ElementKind.responseAssertion.defaultName)
      (hproperties : a.Layered (d.propertiesOf .responseAssertion) [] [] (settings ps)) :
      Asserted d ps [.leaf a]

/-- A sampler has one assertion element below it if the request asserts anything, and
nothing otherwise. -/
theorem asserted_withAssertion (sampler : Element) (d : ElementDefaults) (q : Request) :
    Asserted d q.assertions (withAssertion sampler d q).value.children := by
  show Asserted d q.assertions ((assertion? d q).value.toList.map Node.leaf)
  rw [assertion?]
  rcases hq : q.assertions with _ | ⟨p, ps⟩
  · exact .none
  · rw [List.isEmpty_cons, if_neg Bool.false_ne_true]
    refine .one (List.cons_ne_nil p ps) rfl rfl (Element.layered_of_writes ?_)
    show (d.newElement .responseAssertion).properties.insertAll _ = _
    rw [d.properties_newElement]
    rfl

/-! ## Fragments -/

/-- A kind's own transformer makes a fragment of every request of the kind. It is a
sampler of that kind with the request's name. A property of an HTTP sampler is the
table of all parameters, if there are any and it is the arguments that are asked
for; else the last text that the request gives for the key; else the default for
HTTP samplers; else GET, if it is the method that is asked for. Its keys are the
defaults', the method's, the request's and the arguments', each once and at its
first place. A SOAP sampler has no rules of its own for arguments and method. Below
the sampler stands one response assertion if the request has patterns; what is set
on it, all patterns in order among it, stands above its defaults. -/
theorem fragment_in_layers (d : ElementDefaults) (q : Request) :
    ∃ n, Build.outcome ((RequestTransformer.forKind q.kind).transform d q) = .ok n
      ∧ n.element.name = q.id
      ∧ (match q with
        | .http r => n.element.kind = .httpSampler
          ∧ n.element.Layered (d.propertiesOf .httpSampler) [("HTTPSampler.method", .text "GET")]
            (given r.properties) (arguments r.parameters)
        | .soap r => n.element.kind = .soapSampler
          ∧ n.element.Layered (d.propertiesOf .soapSampler) [] (given r.properties) [])
      ∧ Asserted d q.assertions n.children := by
  rcases q with r | r
  · exact ⟨(ofSoap d r).value, rfl, (isSamplerOf_ofSoap d r).name,
      ⟨kind_ofSoap d r, layered_ofSoap d r⟩, asserted_withAssertion _ d (.soap r)⟩
  · exact ⟨(ofHttp d r).value, rfl, (isSamplerOf_ofHttp d r).name,
      ⟨kind_ofHttp d r, layered_ofHttp d r⟩, asserted_withAssertion _ d (.http r)⟩

/-- A request may give the method twice, and a text for the arguments. -/
example :
    (ofHttp .empty ⟨"a", [⟨httpArguments, "x"⟩, ⟨httpMethod, "PUT"⟩, ⟨httpMethod, "POST"⟩],
      [⟨"user", "b"⟩], [], none⟩).value.element.properties.entries
      = [(httpMethod, .text "POST"), (httpArguments, .table [("user", "b")])] := by
  decide

end Fragment

end LoadTest
