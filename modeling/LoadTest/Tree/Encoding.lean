/-
The bytes a tree is hashed as.

Every text, list, property map and child list is preceded by its length in
eight bytes, and every property value by a byte that tells its shape. So the
bytes determine the tree, the order of its properties included, and no two
trees that differ in structure share their bytes. The empty tree has bytes of
its own.
-/
import LoadTest.Digest.Basic
import LoadTest.Tree.Basic

set_option autoImplicit false

namespace LoadTest

namespace Encoding

/-- A count in eight bytes. -/
def count (n : Nat) : List UInt8 := Bytes.littleEndian 8 n

/-- A text: its length in bytes, then its bytes. -/
def text (s : String) : List UInt8 := count (Bytes.ofText s).length ++ Bytes.ofText s

/-- A row of a table: name and value. -/
def row (r : String × String) : List UInt8 := text r.1 ++ text r.2

/-- A property value behind its tag. -/
def value : PropertyValue → List UInt8
  | .text s => 0 :: text s
  | .integer n => 1 :: Bytes.littleEndian 8 n.toUInt64.toNat
  | .bool b => [2, if b then 1 else 0]
  | .list items => 3 :: (count items.length ++ items.flatMap text)
  | .table rows => 4 :: (count rows.length ++ rows.flatMap row)

/-- A property: key and value. -/
def property (p : String × PropertyValue) : List UInt8 := text p.1 ++ value p.2

/-- An element: kind, name and properties in order. -/
def element (e : Element) : List UInt8 :=
  text e.kind.identifier ++ text e.name
    ++ (count e.properties.size ++ e.properties.entries.flatMap property)

mutual
/-- A node: element, number of children, children. -/
def node : Node → List UInt8
  | .mk e cs => element e ++ (count cs.length ++ forest cs)

/-- Subtrees one after another. -/
def forest : List Node → List UInt8
  | [] => []
  | n :: ns => node n ++ forest ns
end

/-- What stands before the bytes of a root. -/
def treeLabel : List UInt8 := Bytes.ofText "loadplan.tree"

/-- The bytes of the empty tree. -/
def emptyLabel : List UInt8 := Bytes.ofText "loadplan.tree.empty"

/-- The bytes of a tree. -/
def tree (t : Tree) : List UInt8 :=
  match t.root with
  | none => emptyLabel
  | some n => treeLabel ++ node n

end Encoding

/-- The digest of a tree's structure. -/
def Tree.digest (t : Tree) : Digest := Digest.ofBytes (Encoding.tree t)

end LoadTest
