/-
Workloads: named lists of requests with a common think time.

The think time of a request is its own, or else the workload's. Looking a
request up by identifier finds the first one, so a later request with the same
identifier is reached only by its position.
-/
import LoadTest.Workload.Request

set_option autoImplicit false

namespace LoadTest

/-- The requests that a load test sends. -/
structure Workload where
  name : String
  requests : List Request
  thinkTime : Option ThinkTime
  deriving DecidableEq

namespace Workload

/-- A workload without requests. -/
def new (name : String) : Workload := ⟨name, [], none⟩

/-- The workload without name and requests. -/
def empty : Workload := new ""

instance : Inhabited Workload := ⟨empty⟩

/-- Append a request. -/
def withRequest (w : Workload) (r : Request) : Workload := { w with requests := w.requests ++ [r] }

/-- Set the common think time. -/
def withThinkTime (w : Workload) (t : ThinkTime) : Workload := { w with thinkTime := some t }

/-- The first request with an identifier. -/
def findRequest (w : Workload) (id : String) : Option Request :=
  w.requests.find? fun r => r.id == id

/-- The think time of a request: its own, or else the common one. -/
def thinkTimeOf (w : Workload) (r : Request) : Option ThinkTime := r.thinkTime <|> w.thinkTime

/-- The think time of the first request with an identifier; the common one if
there is no such request. -/
def thinkTimeFor (w : Workload) (id : String) : Option ThinkTime :=
  match w.findRequest id with
  | some r => w.thinkTimeOf r
  | none => w.thinkTime

end Workload

end LoadTest
