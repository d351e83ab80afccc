/-
The bytes that are hashed determine the tree.

The encoding of a tree is a string of bytes without any mark for where a part
ends, so it has to be shown that each part ends where it ends. That is what
`Delimits` says of an encoder at a value: bytes that begin with the encoding of
the value begin with the encoding of no other, and what comes after it is the
same on both readings. The property passes through pairs and through lists
behind their count, so it holds of texts, property values, elements and, by
induction over the tree, of nodes.

A length is written in eight bytes. Everything below is therefore about trees
whose lengths fit (`Short (lengths t)`); no other condition is needed.
-/
import LoadTest.Proofs.Tree.Alike
import LoadTest.Tree.Encoding
import Mathlib.Algebra.Ring.Nat

set_option autoImplicit false

namespace LoadTest

namespace Encoding

/-! ## Written lengths

The lengths and counts that the encoding of a value writes, part by part. The
identifier of a kind is left out: it is one of nine short texts. -/

/-- The length in bytes of a text. -/
def textLengths (s : String) : List Nat := [(Bytes.ofText s).length]

/-- The lengths written for a row of a table. -/
def rowLengths (r : String × String) : List Nat := textLengths r.1 ++ textLengths r.2

/-- The lengths written for a property value. -/
def valueLengths : PropertyValue → List Nat
  | .text s => textLengths s
  | .integer _ => []
  | .bool _ => []
  | .list items => items.length :: items.flatMap textLengths
  | .table rows => rows.length :: rows.flatMap rowLengths

/-- The lengths written for a property. -/
def propertyLengths (p : String × PropertyValue) : List Nat :=
  textLengths p.1 ++ valueLengths p.2

/-- The lengths written for an element. -/
def elementLengths (e : Element) : List Nat :=
  textLengths e.name ++ (e.properties.size :: e.properties.entries.flatMap propertyLengths)

mutual
/-- The lengths written for a node. -/
def nodeLengths : Node → List Nat
  | .mk e cs => elementLengths e ++ (cs.length :: forestLengths cs)

/-- The lengths written for subtrees. -/
def forestLengths : List Node → List Nat
  | [] => []
  | n :: ns => nodeLengths n ++ forestLengths ns
end

/-- The lengths written for a tree; none for the empty tree. -/
def lengths (t : Tree) : List Nat := t.root.elim [] nodeLengths

/-- All lengths fit in eight bytes. -/
def Short (ls : List Nat) : Prop := ∀ l ∈ ls, l < 2 ^ 64

instance (ls : List Nat) : Decidable (Short ls) :=
  inferInstanceAs (Decidable (∀ l ∈ ls, l < 2 ^ 64))

theorem short_cons {l : Nat} {ls : List Nat} : Short (l :: ls) ↔ l < 2 ^ 64 ∧ Short ls :=
  List.forall_mem_cons

theorem short_append {ks ls : List Nat} : Short (ks ++ ls) ↔ Short ks ∧ Short ls :=
  List.forall_mem_append

theorem forestLengths_eq_flatMap (ns : List Node) : forestLengths ns = ns.flatMap nodeLengths := by
  induction ns with
  | nil => rfl
  | cons n ns ih => rw [forestLengths, ih, List.flatMap_cons]

theorem forest_eq_flatMap (ns : List Node) : forest ns = ns.flatMap node := by
  induction ns with
  | nil => rfl
  | cons n ns ih => rw [forest, ih, List.flatMap_cons]

/-! ## Encodings that end where they end -/

section Delimits

variable {α β : Type} {lens : α → List Nat} {enc : α → List UInt8}

/-- Bytes that begin with the encoding of `x` begin with the encoding of no
other value, and what follows it is the same on both readings. Only values
whose lengths fit are considered. -/
def Delimits (lens : α → List Nat) (enc : α → List UInt8) (x : α) : Prop :=
  Short (lens x) → ∀ y r s, Short (lens y) → enc x ++ r = enc y ++ s → x = y ∧ r = s

/-- Two values one after the other. -/
theorem Delimits.pair {lens' : β → List Nat} {enc' : β → List UInt8} {x : α} {y : β}
    (hx : Delimits lens enc x) (hy : Delimits lens' enc' y) :
    Delimits (fun p : α × β => lens p.1 ++ lens' p.2) (fun p => enc p.1 ++ enc' p.2) (x, y) := by
  rintro hxy ⟨x', y'⟩ r s hxy' h
  obtain ⟨hsx, hsy⟩ := short_append.mp hxy
  obtain ⟨hsx', hsy'⟩ := short_append.mp hxy'
  simp only [List.append_assoc] at h
  obtain ⟨rfl, h'⟩ := hx hsx x' _ _ hsx' h
  obtain ⟨rfl, hrs⟩ := hy hsy y' _ _ hsy' h'
  exact ⟨rfl, hrs⟩

/-- Equally many values one after the other. -/
theorem Delimits.flatMap {xs : List α} (hxs : ∀ x ∈ xs, Delimits lens enc x) {ys : List α}
    {r s : List UInt8} (hlen : xs.length = ys.length) (hx : Short (xs.flatMap lens))
    (hy : Short (ys.flatMap lens)) (h : xs.flatMap enc ++ r = ys.flatMap enc ++ s) :
    xs = ys ∧ r = s := by
  induction xs generalizing ys with
  | nil =>
    have hnil : ys = [] := List.length_eq_zero_iff.mp hlen.symm
    subst hnil
    exact ⟨rfl, h⟩
  | cons x xs ih =>
    rcases ys with _ | ⟨y, ys⟩
    · exact absurd hlen (by simp)
    · rw [List.flatMap_cons, List.flatMap_cons, List.append_assoc, List.append_assoc] at h
      rw [List.flatMap_cons, short_append] at hx hy
      obtain ⟨rfl, h'⟩ := hxs x List.mem_cons_self hx.1 y _ _ hy.1 h
      obtain ⟨rfl, hrs⟩ :=
        ih (fun z hz => hxs z (List.mem_cons_of_mem _ hz)) (Nat.succ.inj hlen) hx.2 hy.2 h'
      exact ⟨rfl, hrs⟩

/-- A count is written in eight bytes and can be read back. -/
theorem count_append_inj {m n : Nat} {r s : List UInt8} (hm : m < 2 ^ 64) (hn : n < 2 ^ 64)
    (h : count m ++ r = count n ++ s) : m = n ∧ r = s := by
  have hlen : (count m).length = (count n).length := by
    rw [count, count, Bytes.length_littleEndian, Bytes.length_littleEndian]
  obtain ⟨hmn, hrs⟩ := List.append_inj h hlen
  refine ⟨?_, hrs⟩
  have hm' : m < Nat.pow 256 8 := hm
  have hn' : n < Nat.pow 256 8 := hn
  rw [← Bytes.number_littleEndian hm', ← Bytes.number_littleEndian hn']
  exact congrArg Bytes.number hmn

/-- Values one after the other behind their count. -/
theorem Delimits.counted {xs : List α} (hxs : ∀ x ∈ xs, Delimits lens enc x) :
    Delimits (fun ys : List α => ys.length :: ys.flatMap lens)
      (fun ys => count ys.length ++ ys.flatMap enc) xs := by
  intro hx ys r s hy h
  obtain ⟨hxl, hx⟩ := short_cons.mp hx
  obtain ⟨hyl, hy⟩ := short_cons.mp hy
  simp only [List.append_assoc] at h
  obtain ⟨hlen, h'⟩ := count_append_inj hxl hyl h
  exact Delimits.flatMap hxs hlen hx hy h'

end Delimits

/-! ## The parts of a tree -/

/-- A text tells where it ends, by its length in front. -/
theorem text_delimits (a : String) : Delimits textLengths text a := by
  intro ha b r s hb h
  rw [textLengths, short_cons] at ha hb
  rw [text, text, List.append_assoc, List.append_assoc] at h
  -- the counts agree, so the texts are equally long and end at the same place
  obtain ⟨hlen, h'⟩ := count_append_inj ha.1 hb.1 h
  obtain ⟨hbytes, hrs⟩ := List.append_inj h' hlen
  exact ⟨Bytes.ofText_injective hbytes, hrs⟩

/-- A row is two texts, each of which tells where it ends. -/
theorem row_delimits (a : String × String) : Delimits rowLengths row a :=
  (text_delimits a.1).pair (text_delimits a.2)

/-- The sixty-four bits of an integer determine it. -/
theorem integer_append_inj {m n : Int64} {r s : List UInt8}
    (h : Bytes.littleEndian 8 m.toUInt64.toNat ++ r = Bytes.littleEndian 8 n.toUInt64.toNat ++ s) :
    m = n ∧ r = s := by
  obtain ⟨hmn, hrs⟩ := count_append_inj m.toUInt64.toNat_lt n.toUInt64.toNat_lt h
  refine ⟨?_, hrs⟩
  have hbits : m.toUInt64 = n.toUInt64 := UInt64.toNat_inj.mp hmn
  rw [← Int64.toInt64_toUInt64 m, ← Int64.toInt64_toUInt64 n, hbits]

/-- The tag tells the shape of a value, and behind it the shapes are delimited
each in its own way. -/
theorem value_delimits (v : PropertyValue) : Delimits valueLengths value v := by
  intro hv w r s hw h
  cases v with
  | text a =>
    cases w with
    | text b =>
      obtain ⟨-, h'⟩ := List.cons.inj h
      obtain ⟨rfl, hrs⟩ := text_delimits a hv b r s hw h'
      exact ⟨rfl, hrs⟩
    | integer | bool | list | table => simp [value] at h
  | integer m =>
    cases w with
    | integer n =>
      obtain ⟨-, h'⟩ := List.cons.inj h
      obtain ⟨rfl, hrs⟩ := integer_append_inj h'
      exact ⟨rfl, hrs⟩
    | text | bool | list | table => simp [value] at h
  | bool a =>
    cases w with
    | bool b => cases a <;> cases b <;> simp_all [value]
    | text | integer | list | table => simp [value] at h
  | list xs =>
    cases w with
    | list ys =>
      obtain ⟨-, h'⟩ := List.cons.inj h
      obtain ⟨rfl, hrs⟩ := Delimits.counted (fun x _ => text_delimits x) hv ys r s hw h'
      exact ⟨rfl, hrs⟩
    | text | integer | bool | table => simp [value] at h
  | table xs =>
    cases w with
    | table ys =>
      obtain ⟨-, h'⟩ := List.cons.inj h
      obtain ⟨rfl, hrs⟩ := Delimits.counted (fun x _ => row_delimits x) hv ys r s hw h'
      exact ⟨rfl, hrs⟩
    | text | integer | bool | list => simp [value] at h

theorem property_delimits (p : String × PropertyValue) : Delimits propertyLengths property p :=
  (text_delimits p.1).pair (value_delimits p.2)

/-- The identifiers of kinds are never too long. -/
theorem short_identifier (k : ElementKind) : Short (textLengths k.identifier) := by
  cases k <;> decide

/-- An element tells where it ends: its texts do, and the number of its properties
stands in front of them. -/
theorem element_delimits (e : Element) : Delimits elementLengths element e := by
  intro he e' r s he' h
  obtain ⟨hname, hprops⟩ := short_append.mp he
  obtain ⟨hname', hprops'⟩ := short_append.mp he'
  -- kind, name and properties are read off one after the other
  simp only [element, List.append_assoc] at h
  obtain ⟨hid, h₁⟩ :=
    text_delimits e.kind.identifier (short_identifier _) _ _ _ (short_identifier _) h
  obtain ⟨hn, h₂⟩ := text_delimits e.name hname _ _ _ hname' h₁
  rw [← List.append_assoc, ← List.append_assoc] at h₂
  obtain ⟨hes, hrs⟩ :=
    Delimits.counted (fun p _ => property_delimits p) hprops _ r s hprops' h₂
  refine ⟨?_, hrs⟩
  obtain ⟨k, n, ps⟩ := e
  obtain ⟨k', n', ps'⟩ := e'
  have hk : k = k' := ElementKind.identifier_injective hid
  have hps : ps = ps' := OrderedMap.ext hes
  rw [hk, show n = n' from hn, hps]

/-- By induction over the tree: the children are delimited one by one, and their
count is written before them. -/
theorem node_delimits (n : Node) : Delimits nodeLengths node n := by
  induction n with
  | mk e cs ih =>
    intro hn n' r s hn' h
    obtain ⟨e', cs'⟩ := n'
    rw [nodeLengths, forestLengths_eq_flatMap, short_append] at hn hn'
    simp only [node, forest_eq_flatMap, List.append_assoc] at h
    obtain ⟨rfl, h'⟩ := element_delimits e hn.1 e' _ _ hn'.1 h
    rw [← List.append_assoc, ← List.append_assoc] at h'
    obtain ⟨rfl, hrs⟩ := Delimits.counted ih hn.2 cs' r s hn'.2 h'
    exact ⟨rfl, hrs⟩

/-! ## The tree -/

/-- A node is written in more bytes than the two labels of a tree differ by. -/
theorem length_emptyLabel_lt (n : Node) : emptyLabel.length < (treeLabel ++ node n).length := by
  obtain ⟨e, cs⟩ := n
  have hempty : emptyLabel.length = 19 := by decide
  have htree : treeLabel.length = 13 := by decide
  have hcount : ∀ k, (count k).length = 8 := Bytes.length_littleEndian 8
  simp only [List.length_append, node, element, text, hempty, htree, hcount]
  omega

/-- Trees with the same bytes are equal. -/
theorem tree_injective {a b : Tree} (ha : Short (lengths a)) (hb : Short (lengths b))
    (h : tree a = tree b) : a = b := by
  obtain ⟨m⟩ := a
  obtain ⟨n⟩ := b
  rcases m with _ | m <;> rcases n with _ | n
  · rfl
  -- one of the trees is empty: its label is too short for a label and a node
  · have hlt := length_emptyLabel_lt n
    rw [show emptyLabel = treeLabel ++ node n from h] at hlt
    exact absurd hlt (Nat.lt_irrefl _)
  · have hlt := length_emptyLabel_lt m
    rw [show emptyLabel = treeLabel ++ node m from h.symm] at hlt
    exact absurd hlt (Nat.lt_irrefl _)
  · have hnodes : node m ++ [] = node n ++ [] := by
      rw [List.append_nil, List.append_nil]
      exact List.append_cancel_left h
    rw [(node_delimits m ha n [] [] hb hnodes).1]

/-- Whether two elements have the same properties, but not in the same order. -/
def Reordered (x y : Element) : Prop :=
  x.properties.entries.Perm y.properties.entries ∧ x.properties.entries ≠ y.properties.entries

/-- An element is its kind, its name and its list of properties. -/
theorem outline_injective :
    Function.Injective fun e : Element => (e.kind, e.name, e.properties.entries) := by
  rintro ⟨k, n, ps⟩ ⟨k', n', ps'⟩ h
  simp only [Prod.mk.injEq] at h
  obtain ⟨hk, hn, hes⟩ := h
  have hps : ps = ps' := OrderedMap.ext hes
  rw [hk, hn, hps]

/-- Trees that are equal are alike. -/
theorem alike_refl (t : Tree) : t.alike t = true := by
  rw [Tree.alike_iff]
  intro p
  rcases t.element? p with _ | e
  · exact .none
  · exact .some ((Element.alike_iff e e).mpr ⟨rfl, rfl, List.Perm.refl _⟩)

/-- Alike trees are equal unless some elements at the same path list their
properties in different orders. -/
theorem ne_iff_reordered {a b : Tree} (h : a.alike b = true) :
    a ≠ b ↔ ∃ p x y, a.element? p = some x ∧ b.element? p = some y ∧ Reordered x y := by
  rw [Tree.alike_iff] at h
  constructor
  · intro hne
    -- if all elements listed their properties in the same order, the trees would be equal
    by_contra hall
    refine hne (Tree.ext_element? ?_)
    intro p
    have hp := h p
    rcases hx : a.element? p with _ | x
    · rw [hx] at hp
      rcases hy : b.element? p with _ | y
      · rfl
      · rw [hy] at hp
        cases hp
    · rw [hx] at hp
      rcases hy : b.element? p with _ | y
      · rw [hy] at hp
        cases hp
      · rw [hy] at hp
        have hxy : x.alike y = true := by
          rcases hp with h | _
          exact h
        have hperm := ((Element.alike_iff x y).mp hxy).2.2
        have horder : x.properties.entries = y.properties.entries := by
          by_contra hord
          exact hall ⟨p, x, y, hx, hy, hperm, hord⟩
        rw [Element.eq_of_alike hxy horder]
  · rintro ⟨p, x, y, hx, hy, -, hord⟩ rfl
    rw [hx] at hy
    exact hord (congrArg (fun e => e.properties.entries) (Option.some.inj hy))

/-- The bytes of a tree determine it: its shape and, at every path, the kind, the
name and the properties in order. So trees with one digest are alike unless two
different byte strings have the same hash, and alike trees have different bytes
exactly when the properties of some element stand in a different order. -/
theorem tree_bytes_determine (a b : Tree) (ha : Short (lengths a)) (hb : Short (lengths b)) :
    (tree a = tree b ↔
      ∀ p, (a.element? p).map (fun e => (e.kind, e.name, e.properties.entries))
        = (b.element? p).map (fun e => (e.kind, e.name, e.properties.entries)))
    ∧ (a.digest = b.digest →
      a.alike b = true ∨ tree a ≠ tree b ∧ Blake3.hash (tree a) = Blake3.hash (tree b))
    ∧ (a.alike b = true →
      (tree a ≠ tree b ↔
        ∃ p x y, a.element? p = some x ∧ b.element? p = some y ∧ Reordered x y)) := by
  have hbytes : tree a = tree b ↔ a = b := ⟨tree_injective ha hb, congrArg tree⟩
  refine ⟨?_, ?_, ?_⟩
  · rw [hbytes]
    constructor
    · rintro rfl p
      rfl
    · intro h
      refine Tree.ext_element? ?_
      intro p
      exact Option.map_injective outline_injective (h p)
  · intro hdigest
    have hhash : Blake3.hash (tree a) = Blake3.hash (tree b) := congrArg Digest.bytes hdigest
    by_cases h : tree a = tree b
    · left
      rw [tree_injective ha hb h]
      exact alike_refl b
    · exact .inr ⟨h, hhash⟩
  · intro halike
    exact hbytes.not.trans (ne_iff_reordered halike)

/-- A header manager with two properties, in either order: alike, and not the
same bytes. -/
theorem swapped_properties_change_bytes :
    let e := (Element.new .headerManager).withProperty
    let s := Tree.ofElement ((e "a" (.bool true)).withProperty "b" (.integer 1))
    let t := Tree.ofElement ((e "b" (.integer 1)).withProperty "a" (.bool true))
    Short (lengths s) ∧ Short (lengths t) ∧ s.alike t = true ∧ tree s ≠ tree t := by
  intro e s t
  have hs : Short (lengths s) := by decide
  have ht : Short (lengths t) := by decide
  have hst : s.alike t = true := by decide
  refine ⟨hs, ht, hst, ?_⟩
  refine ((tree_bytes_determine s t hs ht).2.2 hst).mpr ⟨[], _, _, rfl, rfl, ?_, ?_⟩
  · exact List.Perm.swap _ _ _
  · decide

end Encoding

end LoadTest
