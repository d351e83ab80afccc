/-
Text formats.

JSON texts are read as they come: a fault counts when it is reached. TOML and
YAML texts must be well formed as a whole before anything is read from them, and
of a YAML text only those parts are put together that are asked for.
The formats also differ in what an array that stands for a record may hold, and
in how numbers with a fraction are written in messages.
-/
import LoadTest.Document.Reader
import LoadTest.Json.Parser
import LoadTest.Toml.Parser
import LoadTest.Yaml.Document

set_option autoImplicit false

namespace LoadTest

/-- A format in which values are written as text. -/
inductive TextFormat where
  | json
  | toml
  | yaml
  deriving DecidableEq

namespace TextFormat

/-- The name of a format. -/
def name : TextFormat → String
  | json => "JSON"
  | toml => "TOML"
  | yaml => "YAML"

/-- How numbers with a fraction are written in messages. -/
def floats : TextFormat → Shortest.Layout
  | json => Json.floats
  | _ => ⟨fun _ => true⟩

/-- Read a value from the document of a TOML text. If it cannot be read, a table
that only begins like a date-time makes the text malformed. -/
def decodeToml {α : Type} (read : Document → Decoded α) (d : Document) : Decoded α :=
  match read d with
  | .ok a => .ok a
  | .error e => if Toml.datesAreSound d then .error e else .error .malformed

/-- Read a value from a text. -/
def decode {α : Type} (f : TextFormat) (outline : Outline) (read : ArrayForm → Document → Decoded α)
    (s : String) : Decoded α :=
  match f with
  | json => Json.decode (read .exact) s
  | toml =>
    match Toml.parse s.toList with
    | none => .error .malformed
    | some d => decodeToml (read .lenient) d
  | yaml => do
    let d ← Yaml.document outline s.toList
    read .refused d

end TextFormat

end LoadTest
