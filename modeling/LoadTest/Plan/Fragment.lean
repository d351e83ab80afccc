/-
Fragments: the part of a plan that one request becomes.

A fragment is a sampler that is named after the request and carries the
request's properties, with one response assertion below it if the request has
patterns. The properties of the request are written over the defaults of the
sampler's kind, in order, so the last value given for a key stands at the place
of the first. Handing a request to the builder of the other kind is an error.
-/
import LoadTest.Element.Defaults
import LoadTest.Journal

set_option autoImplicit false

namespace LoadTest

/-! ## Errors -/

/-- Why a request did not become a fragment. -/
inductive TransformError where
  /-- The request reached the transformer of another kind. -/
  | unexpectedKind (id : String) (expected actual : RequestKind)
  /-- No transformer is registered for the request's kind. -/
  | unregisteredKind (id : String) (kind : RequestKind)
  deriving DecidableEq

namespace TransformError

/-- The name of the cause. -/
def name : TransformError → String
  | unexpectedKind .. => "UnexpectedRequestType"
  | unregisteredKind .. => "UnregisteredRequestType"

/-- The wording of the error. -/
def message : TransformError → String
  | unexpectedKind id expected actual =>
    "invalid request type for '" ++ id ++ "': expected " ++ expected.typeName ++ ", got "
      ++ actual.typeName
  | unregisteredKind id kind =>
    "no transformer registered for " ++ kind.typeName ++ " '" ++ id ++ "'"

/-- The identifier of the request at fault. -/
def id : TransformError → String
  | unexpectedKind id .. => id
  | unregisteredKind id _ => id

/-- The kind that the transformer handles, if there is a transformer. -/
def expected? : TransformError → Option RequestKind
  | unexpectedKind _ expected _ => some expected
  | unregisteredKind .. => none

/-- The kind of the request at fault. -/
def actual : TransformError → RequestKind
  | unexpectedKind _ _ actual => actual
  | unregisteredKind _ kind => kind

end TransformError

/-- A computation that may fail and keeps its journal when it does. -/
abbrev Build (α : Type) := ExceptT TransformError Logged α

/-- The SOAP request, or an error for a request of another kind. -/
def Request.expectSoap : Request → Except TransformError SoapRequest
  | .soap r => .ok r
  | .http r => .error (.unexpectedKind r.id .soap .http)

/-- The HTTP request, or an error for a request of another kind. -/
def Request.expectHttp : Request → Except TransformError HttpRequest
  | .http r => .ok r
  | .soap r => .error (.unexpectedKind r.id .http .soap)

/-! ## Elements of a fragment -/

/-- Create an element of a kind and note it. -/
def ElementDefaults.create (d : ElementDefaults) (kind : ElementKind) : Logged Element :=
  ⟨d.newElement kind, [.created kind]⟩

namespace Fragment

/-- The property keys that a SOAP sampler knows. -/
def soapKeys : List String :=
  ["URL", "SoapSampler.URL_DATA", "SoapSampler.xml_data", "SoapSampler.SOAP_ACTION",
    "SoapSampler.SEND_SOAP_ACTION"]

/-- The method of an HTTP sampler. -/
def httpMethod : String := "HTTPSampler.method"

/-- The parameters of an HTTP sampler. -/
def httpArguments : String := "HTTPsampler.Arguments"

/-- The method of an HTTP sampler for which none is given. -/
def defaultHttpMethod : String := "GET"

/-- The property keys that an HTTP sampler knows. -/
def httpKeys : List String :=
  ["HTTPSampler.domain", "HTTPSampler.port", "HTTPSampler.protocol", "HTTPSampler.path",
    httpMethod, "HTTPSampler.contentEncoding", "HTTPSampler.follow_redirects",
    "HTTPSampler.use_keepalive"]

/-- The patterns of a response assertion. -/
def testStrings : String := "Assertion.test_strings"

/-- The part of the response that an assertion looks at. -/
def testField : String := "Assertion.test_field"

/-- The way in which an assertion compares. -/
def testType : String := "Assertion.test_type"

/-- Comparison by substring. -/
def substringMatch : Int64 := 16

/-- Write properties onto an element, noting each one whose key is unknown. -/
def copyProperties (id : String) (known : List String) : List Property → Element → Logged Element
  | [], e => pure e
  | p :: ps, e => do
    if !known.contains p.key then
      Logged.event (.unrecognisedProperty id p.key e.kind)
    copyProperties id known ps (e.withProperty p.key (.text p.value))

/-- Name an element after a request and write the request's properties onto it. -/
def applyProperties (e : Element) (id : String) (ps : List Property) (known : List String) :
    Logged Element :=
  copyProperties id known ps (e.withName id)

/-- The response assertion for the patterns of a request; none without patterns. -/
def assertion? (d : ElementDefaults) (r : Request) : Logged (Option Element) :=
  if r.assertions.isEmpty then pure none
  else do
    let e ← d.create .responseAssertion
    pure (some (e.withProperties
      [(testField, .text "Assertion.response_data"),
        (testType, .integer substringMatch),
        (testStrings, .list (r.assertions.map Assertion.pattern))]))

/-- A sampler with the response assertion of its request below it. -/
def withAssertion (sampler : Element) (d : ElementDefaults) (r : Request) : Logged Node := do
  let a ← assertion? d r
  pure (.mk sampler (a.toList.map Node.leaf))

/-- The fragment of a SOAP request. -/
def ofSoap (d : ElementDefaults) (r : SoapRequest) : Logged Node := do
  let e ← d.create .soapSampler
  let e ← applyProperties e r.id r.properties soapKeys
  withAssertion e d (.soap r)

/-- Set the method of an HTTP sampler unless its defaults have set one. -/
def ensureMethod (e : Element) : Element :=
  if e.hasProperty httpMethod then e else e.withProperty httpMethod (.text defaultHttpMethod)

/-- Write the parameters of an HTTP request, if there are any. -/
def applyParameters (e : Element) (ps : List Parameter) : Element :=
  if ps.isEmpty then e
  else e.withProperty httpArguments (.table (ps.map fun p => (p.name, p.value)))

/-- The fragment of an HTTP request. -/
def ofHttp (d : ElementDefaults) (r : HttpRequest) : Logged Node := do
  let e ← d.create .httpSampler
  let e ← applyProperties (ensureMethod e) r.id r.properties httpKeys
  withAssertion (applyParameters e r.parameters) d (.http r)

end Fragment

end LoadTest
