/-
Documents of YAML texts.

Aliases are entered one by one, wherever a reader gets. What a text amounts to
may have no end or be out of all proportion to its size, so two things are
limited: how many levels are entered, and how many aliases. Parts that the
reader does not ask for count for neither.
-/
import LoadTest.Document.Outline
import LoadTest.Yaml.Parser

set_option autoImplicit false

namespace LoadTest.Yaml

/-! ## Scalars -/

/-- A document with a tag, if there is one. -/
def withTag (tag : Option Tag) (d : Document) : Document :=
  match tag with
  | none => d
  | some t => .tagged t d

/-- A scalar as a document. -/
def ScalarStyle.document (style : ScalarStyle) (s : String) : Document :=
  match style with
  | plain => .plain s
  | literal => .literal s
  | _ => .text s

/-! ## Entering -/

/-- An answer that is reached by entering aliases; the state is the number of
those that may still be entered. -/
abbrev Entering := StateT Nat Decoded

namespace Graph

/-- The node behind an alias, and any other node itself. -/
def enter (g : Graph) (n : Node) : Entering Node := do
  match n with
  | .alias number =>
    match ← get, g.anchors.find? number with
    | left + 1, some n =>
      set left
      pure n
    | _, _ => throw (.misfit .tooRepetitive)
  | n => pure n

/-- A key and its value, if the key is one that is asked for. The value of
another key is nothing. -/
def enterMember (enterNode : Outline → Node → Entering Document) (outline : Outline)
    (member : Node × Node) : Entering (Document × Document) := do
  let k ← enterNode .whole member.1
  match outline.member? k with
  | some o =>
    let v ← enterNode o member.2
    pure (k, v)
  | none => pure (k, .null)

/-- The document that a node amounts to, with so many levels. -/
def document (g : Graph) : Nat → Outline → Node → Entering Document
  | 0, _, n => do
    match ← g.enter n with
    | .scalar tag s style => pure (withTag tag (style.document s))
    | _ => throw (.misfit .tooDeep)
  | levels + 1, outline, n => do
    match ← g.enter n with
    | .scalar tag s style => pure (withTag tag (style.document s))
    | .sequence tag items =>
      let ds ← items.mapM (g.document levels .whole)
      pure (withTag tag (.sequence ds true))
    | .mapping tag members =>
      let ms ← members.mapM (enterMember (g.document levels) outline)
      pure (withTag tag (.map ms true))
    | .alias _ => throw (.misfit .tooDeep)

/-- The number of levels that can be read. -/
def levels : Nat := 128

/-- The number of aliases that may be entered for each unit of the size of a
text. -/
def repetitions : Nat := 100

/-- The document of a text, as far as it is asked for. -/
def toDocument (g : Graph) (outline : Outline) : Decoded Document :=
  (g.document levels outline g.root).run' (repetitions * g.root.size)

end Graph

/-- The document of a text, as far as it is asked for. -/
def document (outline : Outline) (cs : List Char) : Decoded Document :=
  match parse cs with
  | none => .error .malformed
  | some g => g.toDocument outline

end LoadTest.Yaml
