/-
Workloads as texts.
-/
import LoadTest.Document.Format
import LoadTest.Workload.Document

set_option autoImplicit false

namespace LoadTest.Workload

/-- Read a workload from a text. -/
def parse (f : TextFormat) (s : String) : Decoded Workload :=
  f.decode Workload.outline Workload.read s

/-- The wording of a misfit in a workload. -/
def explain (f : TextFormat) (m : Misfit) : String :=
  "invalid " ++ f.name ++ " workload model: " ++ m.message f.floats

/-- Write a workload as JSON text. -/
def print (w : Workload) : String := w.toJson.print

end LoadTest.Workload
