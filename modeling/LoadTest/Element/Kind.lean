/-
The kinds of test-plan element.

The kinds are declared in the order in which they are listed, serialised and
counted, so `ElementKind.all` is that order and every sorted view of a table
keyed by kind is a walk along it.
-/

set_option autoImplicit false

namespace LoadTest

/-- What an element of a test plan does. -/
inductive ElementKind where
  /-- The plan itself. -/
  | testPlan
  /-- A group of virtual users. -/
  | threadGroup
  /-- Sends a SOAP/XML-RPC request. -/
  | soapSampler
  /-- Sends an HTTP request. -/
  | httpSampler
  /-- Checks a response against patterns. -/
  | responseAssertion
  /-- Supplies request headers. -/
  | headerManager
  /-- Keeps cookies for a user. -/
  | cookieManager
  /-- Pauses before a sampler, with a Gaussian deviation. -/
  | gaussianRandomTimer
  /-- Collects results. -/
  | resultCollector
  deriving DecidableEq, Repr

namespace ElementKind

/-- Every kind, in declaration order. -/
def all : List ElementKind :=
  [testPlan, threadGroup, soapSampler, httpSampler, responseAssertion, headerManager,
    cookieManager, gaussianRandomTimer, resultCollector]

theorem mem_all (k : ElementKind) : k ∈ all := by
  cases k <;> decide

theorem nodup_all : all.Nodup := by decide

/-- The identifier of a kind in documents and in hashed data. -/
def identifier : ElementKind → String
  | testPlan => "test_plan"
  | threadGroup => "thread_group"
  | soapSampler => "soap_sampler"
  | httpSampler => "http_sampler"
  | responseAssertion => "response_assertion"
  | headerManager => "header_manager"
  | cookieManager => "cookie_manager"
  | gaussianRandomTimer => "gaussian_random_timer"
  | resultCollector => "result_collector"

/-- The kind with a given identifier. -/
def ofIdentifier? (s : String) : Option ElementKind := all.find? fun k => k.identifier == s

theorem ofIdentifier?_identifier (k : ElementKind) : ofIdentifier? k.identifier = some k := by
  cases k <;> decide

/-- No two kinds share an identifier. -/
theorem identifier_injective {a b : ElementKind} (h : a.identifier = b.identifier) : a = b := by
  have hs := congrArg ofIdentifier? h
  rwa [ofIdentifier?_identifier, ofIdentifier?_identifier, Option.some_inj] at hs

/-- The name an element of this kind has until it is renamed. -/
def defaultName : ElementKind → String
  | testPlan => "Test Plan"
  | threadGroup => "Thread Group"
  | soapSampler => "SOAP/XML-RPC Request"
  | httpSampler => "HTTP Request"
  | responseAssertion => "Response Assertion"
  | headerManager => "HTTP Header Manager"
  | cookieManager => "HTTP Cookie Manager"
  | gaussianRandomTimer => "Gaussian Random Timer"
  | resultCollector => "View Results Tree"

/-- Samplers send requests; the other kinds configure, check or observe them. -/
def isSampler : ElementKind → Bool
  | soapSampler | httpSampler => true
  | _ => false

end ElementKind

end LoadTest
