/-
Requests of a workload.

A request has an identifier, ordered properties, response patterns and possibly
a think time of its own. There are two kinds, and only HTTP requests carry
parameters, so the kinds are separate types and `Request` is their sum. The
identifier need not be unique, and a property key may be given more than once.
-/

set_option autoImplicit false

namespace LoadTest

/-- A pause in milliseconds: its mean and its Gaussian deviation. -/
structure ThinkTime where
  mean : UInt64
  deviation : UInt64
  deriving DecidableEq

/-- The kinds of request. -/
inductive RequestKind where
  /-- A SOAP/XML-RPC call. -/
  | soap
  /-- A plain HTTP call. -/
  | http
  deriving DecidableEq, Repr

namespace RequestKind

/-- Every kind, in declaration order. -/
def all : List RequestKind := [soap, http]

theorem mem_all (k : RequestKind) : k ∈ all := by
  cases k <;> decide

/-- The identifier of a kind in documents. -/
def identifier : RequestKind → String
  | soap => "soap"
  | http => "http"

/-- The name of the kind's request type, as it appears in messages. -/
def typeName : RequestKind → String
  | soap => "SoapRequest"
  | http => "HttpRequest"

/-- The kind with a given identifier. -/
def ofIdentifier? (s : String) : Option RequestKind := all.find? fun k => k.identifier == s

theorem ofIdentifier?_identifier (k : RequestKind) : ofIdentifier? k.identifier = some k := by
  cases k <;> decide

end RequestKind

/-- A property given by a request. -/
structure Property where
  key : String
  value : String
  deriving DecidableEq

/-- A parameter of an HTTP request. -/
structure Parameter where
  name : String
  value : String
  deriving DecidableEq

/-- A pattern that the response must contain. -/
structure Assertion where
  pattern : String
  deriving DecidableEq

/-- A SOAP request. -/
structure SoapRequest where
  id : String
  properties : List Property
  assertions : List Assertion
  thinkTime : Option ThinkTime
  deriving DecidableEq

/-- A request with nothing but an identifier. -/
def SoapRequest.new (id : String) : SoapRequest := ⟨id, [], [], none⟩

/-- An HTTP request. -/
structure HttpRequest where
  id : String
  properties : List Property
  parameters : List Parameter
  assertions : List Assertion
  thinkTime : Option ThinkTime
  deriving DecidableEq

/-- A request with nothing but an identifier. -/
def HttpRequest.new (id : String) : HttpRequest := ⟨id, [], [], [], none⟩

/-- A request of either kind. -/
inductive Request where
  | soap (r : SoapRequest)
  | http (r : HttpRequest)
  deriving DecidableEq

namespace Request

/-- The kind of the request. -/
def kind : Request → RequestKind
  | soap _ => .soap
  | http _ => .http

/-- The identifier of the request. -/
def id : Request → String
  | soap r => r.id
  | http r => r.id

/-- The properties in order, repeated keys included. -/
def properties : Request → List Property
  | soap r => r.properties
  | http r => r.properties

/-- The response patterns in order. -/
def assertions : Request → List Assertion
  | soap r => r.assertions
  | http r => r.assertions

/-- The request's own think time. -/
def thinkTime : Request → Option ThinkTime
  | soap r => r.thinkTime
  | http r => r.thinkTime

/-- The SOAP request, if it is one. -/
def soap? : Request → Option SoapRequest
  | soap r => some r
  | http _ => none

/-- The HTTP request, if it is one. -/
def http? : Request → Option HttpRequest
  | http r => some r
  | soap _ => none

end Request

end LoadTest
