import LoadTest.Config.Text
import LoadTest.Fixture.Doubles
import LoadTest.Fixture.Workloads
import LoadTest.Plan.Compile
import LoadTest.Proofs.Document.Holds
import LoadTest.Proofs.Document.Members
import LoadTest.Proofs.Document.Word
import LoadTest.Proofs.Element.Document
import LoadTest.Proofs.Filter.TimerPlan
import LoadTest.Proofs.Filter.Timers
import LoadTest.Proofs.Plan.Census
import LoadTest.Proofs.Plan.ClosedForm
import LoadTest.Proofs.Plan.Dispatch
import LoadTest.Proofs.Plan.FilterOrder
import LoadTest.Proofs.Plan.Fragment
import LoadTest.Proofs.Plan.Growth
import LoadTest.Proofs.Plan.Pauses
import LoadTest.Proofs.Plan.Recording
import LoadTest.Proofs.Plan.Run
import LoadTest.Proofs.Plan.Trace
import LoadTest.Proofs.Tree.Alike
import LoadTest.Proofs.Tree.Descendants
import LoadTest.Proofs.Tree.Document
import LoadTest.Proofs.Tree.Edit
import LoadTest.Proofs.Tree.EditRun
import LoadTest.Proofs.Tree.Encoding
import LoadTest.Proofs.Tree.PathText
import LoadTest.Proofs.Tree.Preorder
import LoadTest.Proofs.Workload.Agreement
import LoadTest.Tree.Document
import LoadTest.Tree.Selector
import LoadTest.Workload.Text
import LoadTest.Proofs.Filter.Headers
import LoadTest.Proofs.Tree.Refusal
import LoadTest.Proofs.Element.Writes
import LoadTest.Proofs.Plan.Layers
import LoadTest.Proofs.Tree.Visit
import LoadTest.Proofs.Element.Shapes
import LoadTest.Proofs.Workload.Layout
import LoadTest.Proofs.Config.Document
import LoadTest.Proofs.Digest.Text
import LoadTest.Proofs.History
import LoadTest.Proofs.Element.History
import LoadTest.Proofs.Element.Defaults
import LoadTest.Proofs.Plan.Registrations
