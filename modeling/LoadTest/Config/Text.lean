/-
Configurations as texts.
-/
import LoadTest.Config.Document
import LoadTest.Document.Format

set_option autoImplicit false

namespace LoadTest.PlanConfig

/-- Read a configuration from a text. -/
def parse (f : TextFormat) (s : String) : Decoded PlanConfig :=
  f.decode PlanConfig.outline PlanConfig.read s

/-- The wording of a misfit in a configuration. -/
def explain (f : TextFormat) (m : Misfit) : String :=
  "invalid " ++ f.name ++ " config: " ++ m.message f.floats

/-- Write a configuration as JSON text. -/
def print (c : PlanConfig) : String := c.toJson.print

end LoadTest.PlanConfig
