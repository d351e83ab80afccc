/-
Nodes and trees as documents.

A node without children is written without a member for them. A tree is written
with its root, which is null when the tree is empty.
-/
import LoadTest.Element.Document
import LoadTest.Tree.Basic

set_option autoImplicit false

namespace LoadTest

namespace Node

mutual
/-- Write a node. -/
def toJson : Node → Json
  | mk e cs =>
    .object (("element", e.toJson)
      :: (if cs.isEmpty then [] else [("children", .array (forestToJson cs))]))

/-- Write nodes one after another. -/
def forestToJson : List Node → List Json
  | [] => []
  | n :: ns => toJson n :: forestToJson ns
end

/-- The members of a node met so far. -/
structure Slots where
  element : Option Element
  children : Option (List Node)

/-- The element must be given; children may be left out. The children are read
by the given reader. -/
def reader (form : ArrayForm) (readChild : Document → Decoded Node) : RecordReader Slots Node where
  name := "TreeNode"
  members := ["element", "children"]
  optional i := i == 1
  blank := ⟨none, none⟩
  isSet
    | 0, s => s.element.isSome
    | _, s => s.children.isSome
  fill
    | 0, d, s => (Element.read form d).map fun v => { s with element := some v }
    | _, d, s => (d.readList readChild).map fun v => { s with children := some v }
  finish s :=
    match s.element with
    | none => Decoded.misfit (.missingMember "element")
    | some e => .ok (mk e (s.children.getD []))

/-- Read a node of at most so many levels. -/
def readWithin (form : ArrayForm) : Nat → Document → Decoded Node
  | 0, d => d.mismatch (.record "TreeNode")
  | levels + 1, d => (reader form (readWithin form levels)).read form d

/-- Read a node. It cannot have more levels than its document. -/
def read (form : ArrayForm) (d : Document) : Decoded Node := readWithin form (d.height + 1) d

end Node

namespace Tree

/-- Write a tree. -/
def toJson (t : Tree) : Json := .object [("root", t.root.elim .null Node.toJson)]

/-- The root must be given in an array; in a map it may be left out. -/
def reader (form : ArrayForm) : RecordReader (Option (Option Node)) Tree where
  name := "ArtifactTree"
  members := ["root"]
  optional _ := false
  blank := none
  isSet _ s := s.isSome
  fill _ d _ := (d.readOption (Node.read form)).map some
  finish s := .ok ⟨s.getD none⟩

/-- Read a tree. -/
def read (form : ArrayForm) (d : Document) : Decoded Tree := (reader form).read form d

end Tree

end LoadTest
