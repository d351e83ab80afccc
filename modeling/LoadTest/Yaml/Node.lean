/-
Nodes of YAML texts.

A text makes up a tree of nodes in which an alias is a leaf: it stands for a
node elsewhere in the text, which may even be one around it. Anchors are
numbered, and an alias keeps the number that its name has where it stands. What
the number stands for is only known at the end of the text, for a later anchor
with the same number takes the place of an earlier one.
-/
import LoadTest.Document.Tag
import LoadTest.OrderedMap
import LoadTest.Yaml.Token

set_option autoImplicit false

namespace LoadTest.Yaml

/-! ## Nodes -/

/-- A value of a text. -/
inductive Node where
  | scalar (tag : Option Tag) (text : String) (style : ScalarStyle)
  | sequence (tag : Option Tag) (items : List Node)
  /-- Keys with values, in the order of the text. -/
  | mapping (tag : Option Tag) (members : List (Node × Node))
  /-- What the anchor with a number stands for. -/
  | alias (number : Nat)

namespace Node

instance : Inhabited Node := ⟨scalar none "" .plain⟩

mutual
/-- The size of a text: one for each leaf and two for each collection. -/
def size : Node → Nat
  | sequence _ items => sizeItems items + 2
  | mapping _ members => sizeMembers members + 2
  | _ => 1

/-- The size of elements. -/
def sizeItems : List Node → Nat
  | [] => 0
  | n :: ns => size n + sizeItems ns

/-- The size of keys and values. -/
def sizeMembers : List (Node × Node) → Nat
  | [] => 0
  | (k, v) :: ms => size k + size v + sizeMembers ms
end

/-- Every node has a size. -/
theorem size_pos (n : Node) : 0 < n.size := by cases n <;> simp [size]

end Node

/-! ## Anchors -/

/-- The anchors of a text. -/
structure Anchors where
  /-- The names, each with the number that it has now. -/
  names : OrderedMap String Nat
  /-- The numbers in the order of the text, the last one first. -/
  numbers : List Nat
  /-- The nodes that are known, each with the place of its anchor in the order
  of the text. -/
  nodes : List (Nat × Node)

namespace Anchors

/-- No anchors. -/
def empty : Anchors := ⟨.empty, [], []⟩

/-- The place of the next anchor. -/
def next (a : Anchors) : Nat := a.numbers.length

/-- The anchors with a further one. Its number is the number of names so far,
so a name that is used again may come to share its number with the next new
name. -/
def declare (name : String) (a : Anchors) : Anchors :=
  let number := a.names.size
  ⟨(a.names.insert name number).2, number :: a.numbers, a.nodes⟩

/-- The anchors, with the node at a place. -/
def define (place : Nat) (n : Node) (a : Anchors) : Anchors :=
  ⟨a.names, a.numbers, (place, n) :: a.nodes⟩

/-- The number that a name has. -/
def number? (name : String) (a : Anchors) : Option Nat := a.names.get? name

/-- The place of the last anchor with a number, among those that are given with
the last one first. -/
def lastPlace? (number : Nat) : List Nat → Option Nat
  | [] => none
  | n :: ns => if n = number then some ns.length else lastPlace? number ns

/-- What a number stands for. -/
def find? (number : Nat) (a : Anchors) : Option Node :=
  (lastPlace? number a.numbers).bind fun place => a.nodes.lookup place

@[simp] theorem next_declare (name : String) (a : Anchors) :
    (a.declare name).next = a.next + 1 := rfl

/-- A name that is declared has the number of names in front of it; the others
keep their numbers. -/
theorem number?_declare (name other : String) (a : Anchors) :
    (a.declare name).number? other
      = if name = other then some a.names.size else a.number? other :=
  OrderedMap.get?_insert a.names name other a.names.size

/-- The last anchor with a number is the one that counts. -/
theorem find?_define_declare (name : String) (n : Node) (a : Anchors) :
    ((a.declare name).define a.next n).find? a.names.size = some n := by
  simp [declare, define, find?, lastPlace?, next]

end Anchors

/-! ## Graphs -/

/-- A text as a graph: the node that it consists of, and its anchors. -/
structure Graph where
  root : Node
  anchors : Anchors

end LoadTest.Yaml
