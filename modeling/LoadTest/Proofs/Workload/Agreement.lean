/-
Workloads read as YAML from their JSON text.

A text in JSON is not always one in YAML, but the text of a workload is, as long
as no character in its strings lies behind the tilde: whatever the strings are,
controls, quotation marks and spellings of other values included, they are
printed between quotation marks and in escapes that both formats know. YAML
leaves some scalars untyped where JSON does not, so the readers get different
documents; both hold the workload.
-/
import LoadTest.Proofs.Workload.Document
import LoadTest.Proofs.Yaml.Document

set_option autoImplicit false

namespace LoadTest

/-! ## What YAML asks of a text -/

/-- A workload of plain characters is printed on a single line. -/
theorem Workload.isInline_toJson {w : Workload} (hw : ∀ s ∈ w.texts, Yaml.IsAscii s) :
    Yaml.IsInline w.toJson := by
  have hkeys : ∀ k ∈ memberNames, Yaml.AsciiKey k := by decide
  have hkinds : ∀ k : RequestKind, Yaml.IsAscii k.identifier := by
    intro k
    cases k with
    | soap => decide
    | http => decide
  exact every_toJson hkeys (fun _ => trivial) hkinds hw

theorem ThinkTime.covers_outline (t : ThinkTime) : ThinkTime.outline.Covers t.toJson := by
  refine .record (fun _ => .whole) ?_ fun e _ => .whole e.2
  simp only [List.forall_mem_cons]
  exact ⟨rfl, rfl, List.forall_mem_nil _⟩

/-- Every member of a workload is asked for. -/
theorem Workload.covers_outline (w : Workload) : Workload.outline.Covers w.toJson := by
  let part : String × Json → Outline := fun e =>
    if e.1 = "think_time" then ThinkTime.outline else .whole
  have hwhole {k : String} (j : Json) (hk : k ≠ "think_time") : (part (k, j)).Covers j := by
    rw [show part (k, j) = .whole from if_neg hk]
    exact .whole j
  have htime : ∀ e ∈ ThinkTime.members w.thinkTime,
      [("name", .whole), ("requests", .whole), ("think_time", ThinkTime.outline)].lookup e.1
        = some (part e) ∧ (part e).Covers e.2 := by
    cases w.thinkTime with
    | none => exact fun e he => absurd he List.not_mem_nil
    | some t => exact List.forall_mem_singleton.mpr ⟨rfl, t.covers_outline⟩
  refine .record part ?_ ?_
  · simp only [List.forall_mem_append, List.forall_mem_cons]
    exact ⟨⟨rfl, rfl, List.forall_mem_nil _⟩, fun e he => (htime e he).1⟩
  · simp only [List.forall_mem_append, List.forall_mem_cons]
    exact ⟨⟨hwhole _ (by decide), hwhole _ (by decide), List.forall_mem_nil _⟩,
      fun e he => (htime e he).2⟩

/-! ## Reading the same text twice -/

namespace Workload

/-- A printed workload of plain characters is read back as itself where it is taken
for YAML. -/
theorem parse_yaml_print {w : Workload} (hw : ∀ s ∈ w.texts, Yaml.IsAscii s) :
    parse .yaml w.print = .ok w := by
  have hlevels : w.toJson.nesting ≤ Yaml.Graph.levels :=
    Nat.le_trans w.nesting_toJson_le (by decide)
  obtain ⟨d, hd, hdocument⟩ :=
    Yaml.exists_document (isInline_toJson hw) w.covers_outline hlevels
  have hprint : w.print.toList = Json.chars w.toJson := String.toList_ofList
  change (Yaml.document Workload.outline w.print.toList >>= Workload.read .refused) = _
  rw [hprint]
  refine (congrArg (· >>= Workload.read .refused) hdocument).trans ?_
  exact w.reads .refused d hd

/-- A printed workload is read as itself in both formats, if no character in its
strings lies behind the tilde. -/
theorem yaml_agrees_with_json {w : Workload}
    (hw : ∀ s ∈ w.texts, ∀ c ∈ s.toList, c.toNat ≤ 0x7E) :
    parse .yaml w.print = .ok w ∧ parse .yaml w.print = parse .json w.print := by
  have hyaml : parse .yaml w.print = .ok w := parse_yaml_print hw
  refine ⟨hyaml, ?_⟩
  rw [hyaml, w.parse_json_print]

/-- Strings that look like null, numbers, comments and markers, with controls,
quotation marks, and blanks at the ends. -/
def deceptive : Workload where
  name := "null"
  requests :=
    [.soap ⟨"0x10", [⟨"  ", "\x00\"\\\t"⟩, ⟨"a: b", "# ]"⟩], [⟨"---\n"⟩], some ⟨0, 0⟩⟩,
      .http ⟨"", [⟨"~", " x "⟩], [⟨"[1, 2]", "\x1b/"⟩], [], none⟩]
  thinkTime := some ⟨18446744073709551615, 7⟩

theorem deceptive_strings_agree : (∀ s ∈ deceptive.texts, ∀ c ∈ s.toList, c.toNat ≤ 0x7E)
    ∧ parse .yaml deceptive.print = .ok deceptive
    ∧ parse .yaml deceptive.print = parse .json deceptive.print := by
  have hascii : ∀ s ∈ deceptive.texts, Yaml.IsAscii s := by decide
  exact ⟨hascii, yaml_agrees_with_json hascii⟩

end Workload

end LoadTest
