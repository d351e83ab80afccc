/-
Sample workloads.

Two kinds of request with typical properties, workloads in which they
alternate, and a small shop with think times.
-/
import LoadTest.Text.Decimal
import LoadTest.Workload.Model

set_option autoImplicit false

namespace LoadTest.Fixture

/-- A SOAP request with address, body and one pattern. -/
def soapRequest (id : String) : SoapRequest where
  id := id
  properties := [⟨"URL", "http://svc/" ++ id⟩, ⟨"SoapSampler.xml_data", "<Envelope/>"⟩]
  assertions := [⟨"OK"⟩]
  thinkTime := none

/-- An HTTP request with a path and one parameter. -/
def httpRequest (id : String) : HttpRequest where
  id := id
  properties := [⟨"HTTPSampler.path", "/" ++ id⟩]
  parameters := [⟨"q", id⟩]
  assertions := []
  thinkTime := none

/-- The request number `i` of a mixed workload; the kinds alternate. -/
def mixedRequest (i : Nat) : Request :=
  let id := "req" ++ Decimal.text i
  if i % 2 = 0 then .soap (soapRequest id) else .http (httpRequest id)

/-- A workload of `n` requests of alternating kinds. -/
def mixedWorkload (n : Nat) : Workload := ⟨"mixed", (List.range n).map mixedRequest, none⟩

/-- A shop: log in, browse at leisure, buy. -/
def sampleWorkload : Workload where
  name := "checkout"
  requests :=
    [.soap (soapRequest "login"),
      .http { httpRequest "browse" with thinkTime := some ⟨1500, 300⟩ },
      .soap { soapRequest "purchase" with assertions := [⟨"OK"⟩, ⟨"<orderId>"⟩] }]
  thinkTime := some ⟨500, 100⟩

/-- A nameless workload with a single request. -/
def singleRequest (r : Request) : Workload := Workload.empty.withRequest r

end LoadTest.Fixture
