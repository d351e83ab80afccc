/-
Trees read back from their printed form.

A printed tree is read as its normal form, unless its text nests too deeply; then
the text counts as malformed and no tree is read at all. The reader of a node
is given a number of levels beforehand, and a node never has more levels than
the document that it is read from, so this number plays no part.

What is read back is the tree itself exactly if no element holds an empty table.
The bytes that are hashed tell the two apart as well: normal forms have the same
length in bytes, so the bytes can be compared place by place.
-/
import LoadTest.Document.Format
import LoadTest.Proofs.Element.Document
import LoadTest.Proofs.Tree.Encoding
import LoadTest.Tree.Document

set_option autoImplicit false

namespace LoadTest

/-! ## Normal forms -/

namespace Node

mutual
/-- The node with all property values in normal form. -/
def normal : Node → Node
  | mk e cs => mk e.normal (forestNormal cs)

/-- Nodes one by one in normal form. -/
def forestNormal : List Node → List Node
  | [] => []
  | n :: ns => normal n :: forestNormal ns
end

theorem forestNormal_eq_map (ns : List Node) : forestNormal ns = ns.map normal := by
  induction ns with
  | nil => rfl
  | cons n ns ih => rw [forestNormal, ih, List.map_cons]

theorem forestToJson_eq_map (ns : List Node) : forestToJson ns = ns.map toJson := by
  induction ns with
  | nil => rfl
  | cons n ns ih => rw [forestToJson, ih, List.map_cons]

theorem element_normal (n : Node) : n.normal.element = n.element.normal := by
  cases n
  rfl

theorem children_normal (n : Node) : n.normal.children = n.children.map normal := by
  obtain ⟨e, cs⟩ := n
  exact forestNormal_eq_map cs

/-- Nodes stay where they are. -/
theorem get?_normal (p : Path) (n : Node) : n.normal.get? p = (n.get? p).map normal := by
  induction p generalizing n with
  | nil => rfl
  | cons i p ih =>
    rw [get?_cons, get?_cons, children_normal, List.getElem?_map]
    cases n.children[i]? with
    | none => rfl
    | some c => exact ih c

end Node

namespace Tree

/-- The tree with all property values in normal form. -/
def normal (t : Tree) : Tree := ⟨t.root.map Node.normal⟩

/-- Some element of the tree has a table without rows as a property. -/
def HoldsEmptyTable (t : Tree) : Prop :=
  ∃ p e key, t.element? p = some e ∧ e.property? key = some (.table [])

/-- At every path of the normal form stands the normal form of what stood there. -/
theorem element?_normal (t : Tree) (p : Path) :
    t.normal.element? p = (t.element? p).map Element.normal := by
  rcases t with ⟨_ | n⟩
  · rfl
  · change (n.normal.get? p).map Node.element = ((n.get? p).map Node.element).map Element.normal
    rw [Node.get?_normal, Option.map_map, Option.map_map]
    exact congrArg (Option.map · (n.get? p)) (funext Node.element_normal)

/-- A tree is its own normal form exactly if no property in it holds an empty table. -/
theorem normal_eq_self_iff (t : Tree) : t.normal = t ↔ ¬ t.HoldsEmptyTable := by
  constructor
  · rintro h ⟨p, e, key, he, hkey⟩
    have hnormal := t.element?_normal p
    rw [h, he, Option.map_some, Option.some_inj] at hnormal
    exact e.normal_eq_self_iff.mp hnormal.symm key hkey
  · intro h
    refine ext_element? fun p => ?_
    rw [element?_normal]
    cases he : t.element? p with
    | none => rfl
    | some e =>
      have hself : e.normal = e :=
        e.normal_eq_self_iff.mpr fun key hkey => h ⟨p, e, key, he, hkey⟩
      rw [Option.map_some, hself]

end Tree

/-! ## Reading -/

namespace Json

/-- A document has at least the levels of the value it was printed from. -/
theorem nesting_le_height (j : Json) (depth : Nat) : nesting j ≤ (document depth j).height := by
  have hlevel : ∀ depth (d : Document), d.height ≤ (atDepth depth d).height := by
    intro depth d
    rw [atDepth]
    by_cases h : depth < maxDepth
    · exact Nat.le_of_eq (by rw [if_pos h])
    · rw [if_neg h]
      exact Nat.le_succ _
  induction j generalizing depth with
  | null => exact Nat.zero_le _
  | bool b => exact Nat.zero_le _
  | integer n => exact Nat.zero_le _
  | text s => exact Nat.zero_le _
  | array js ih =>
    have hitems : nestingItems js ≤ Document.heightItems (documents (depth + 1) js) := by
      induction js with
      | nil => exact Nat.zero_le _
      | cons j js ihs =>
        have hj := ih j List.mem_cons_self (depth + 1)
        have hjs := ihs fun k hk => ih k (List.mem_cons_of_mem _ hk)
        rw [nestingItems, documents, Document.heightItems]
        omega
    rw [nesting, document]
    exact Nat.le_trans (Nat.succ_le_succ hitems)
      (hlevel depth (.sequence (documents (depth + 1) js) true))
  | object ms ih =>
    have hmembers : nestingMembers ms ≤ Document.heightMembers (memberDocuments (depth + 1) ms) := by
      induction ms with
      | nil => exact Nat.zero_le _
      | cons m ms ihs =>
        obtain ⟨k, j⟩ := m
        have hj : nesting j ≤ (document (depth + 1) j).height :=
          ih (k, j) List.mem_cons_self (depth + 1)
        have hms := ihs fun m hm => ih m (List.mem_cons_of_mem _ hm)
        rw [nestingMembers, memberDocuments, Document.heightMembers]
        omega
    rw [nesting, document]
    exact Nat.le_trans (Nat.succ_le_succ hmembers)
      (hlevel depth (.map (memberDocuments (depth + 1) ms) true))

end Json

namespace Node

/-- Every level of a node is a level of what is printed. -/
theorem height_le_nesting (n : Node) : n.height ≤ n.toJson.nesting := by
  induction n with
  | mk e cs ih =>
    have hforest : forestHeight cs ≤ Json.nestingItems (forestToJson cs) := by
      clear * - ih
      induction cs with
      | nil => exact Nat.zero_le _
      | cons c cs ihs =>
        have hc := ih c List.mem_cons_self
        have hcs := ihs fun d hd => ih d (List.mem_cons_of_mem _ hd)
        rw [forestHeight, forestToJson, Json.nestingItems]
        omega
    cases cs with
    | nil =>
      rw [height, toJson, Json.nesting]
      exact Nat.succ_le_succ (Nat.zero_le _)
    | cons c cs =>
      rw [height, toJson, List.isEmpty_cons, if_neg Bool.false_ne_true, Json.nesting,
        Json.nestingMembers, Json.nestingMembers, Json.nesting]
      omega

/-- A printed node is read back in normal form, given its number of levels. -/
theorem yields_readWithin (form : ArrayForm) (n : Node) (levels : Nat) (h : n.height ≤ levels) :
    Json.Yields (readWithin form levels) n.toJson n.normal := by
  induction n generalizing levels with
  | mk e cs ih =>
    rw [height] at h
    obtain ⟨l, rfl⟩ : ∃ l, levels = l + 1 := ⟨levels - 1, by omega⟩
    -- the node takes one level and leaves `l` for its children
    have helement := (Element.yields_read form e).map fun v => (⟨some v, none⟩ : Slots)
    rw [toJson, normal]
    change Json.Yields ((reader form (readWithin form l)).read form) _ _
    cases cs with
    | nil =>
      refine Json.yields_record form (s := ⟨some e.normal, none⟩) ?_ rfl
      exact Json.fills_cons (i := 0) rfl rfl helement (Json.fills_nil _ _)
    | cons c cs =>
      have hchildren : List.Forall₂ (Json.Yields (readWithin form l)) (forestToJson (c :: cs))
          (forestNormal (c :: cs)) := by
        rw [forestToJson_eq_map, forestNormal_eq_map, List.forall₂_map_left_iff,
          List.forall₂_map_right_iff, List.forall₂_same]
        intro d hd
        exact ih d hd l (Nat.le_trans (height_le_of_mem hd) (Nat.le_of_succ_le_succ h))
      have hlist := (Json.yields_readList hchildren).map fun v =>
        (⟨some e.normal, some v⟩ : Slots)
      rw [List.isEmpty_cons, if_neg Bool.false_ne_true]
      refine Json.yields_record form
        (s := ⟨some e.normal, some (forestNormal (c :: cs))⟩) ?_ rfl
      refine Json.fills_cons (i := 0) rfl rfl helement ?_
      exact Json.fills_cons (i := 1) rfl rfl hlist (Json.fills_nil _ _)

/-- A node is read as its normal form if nothing in it stands too deep. -/
theorem yields_read (form : ArrayForm) (n : Node) :
    Json.Yields (read form) n.toJson n.normal := by
  intro depth hdepth
  have hheight := Nat.le_trans n.height_le_nesting (Json.nesting_le_height n.toJson depth)
  exact yields_readWithin form n _ (Nat.le_succ_of_le hheight) depth hdepth

end Node

namespace Tree

/-- A printed tree is read back in normal form. -/
theorem yields_read (form : ArrayForm) (t : Tree) :
    Json.Yields (read form) t.toJson t.normal := by
  have hroot : Json.Yields (Document.readOption (Node.read form))
      (t.root.elim .null Node.toJson) (t.root.map Node.normal) := by
    rcases t with ⟨_ | n⟩
    · exact Json.yields_of_nesting_eq_zero rfl fun _ => rfl
    · intro depth hdepth
      have hread := (Node.yields_read form n).map some depth hdepth
      -- what a node is printed as is neither null nor a scalar
      have hsome : Document.readOption (Node.read form) (Json.document depth n.toJson)
          = (Node.read form (Json.document depth n.toJson)).map some := by
        obtain ⟨e, cs⟩ := n
        rw [Node.toJson, Json.document, Json.atDepth]
        by_cases h : depth < Json.maxDepth
        · rw [if_pos h]
          rfl
        · rw [if_neg h]
          rfl
      exact hsome.trans hread
  refine Json.yields_record form (s := some (t.root.map Node.normal)) ?_ rfl
  exact Json.fills_cons (i := 0) rfl rfl (hroot.map some) (Json.fills_nil _ _)

end Tree

/-! ## Hashed bytes -/

namespace Encoding

section Tells

variable {α β : Type} {enc : α → List UInt8} {enc' : β → List UInt8}

/-- The encodings of `x` and `y` are equally long, and they are the same only if
`x` and `y` are. Equal lengths make this compositional: bytes in a row are then
the same only if they are the same part by part. -/
def Tells (enc : α → List UInt8) (x y : α) : Prop :=
  (enc x).length = (enc y).length ∧ (enc x = enc y → x = y)

theorem tells_refl (x : α) : Tells enc x x := ⟨rfl, fun _ => rfl⟩

/-- Two values one after the other. -/
theorem Tells.pair {x y : α} {x' y' : β} (h : Tells enc x y) (h' : Tells enc' x' y') :
    Tells (fun p : α × β => enc p.1 ++ enc' p.2) (x, x') (y, y') := by
  constructor
  · simp only [List.length_append, h.1, h'.1]
  · intro heq
    obtain ⟨hx, hx'⟩ := List.append_inj heq h.1
    rw [h.2 hx, h'.2 hx']

/-- Values one after another. -/
theorem tells_flatMap {xs ys : List α} (h : List.Forall₂ (Tells enc) xs ys) :
    Tells (List.flatMap enc) xs ys := by
  induction h with
  | nil => exact tells_refl []
  | @cons x y xs ys hxy _ ih =>
    constructor
    · rw [List.flatMap_cons, List.flatMap_cons, List.length_append, List.length_append, hxy.1, ih.1]
    · intro heq
      rw [List.flatMap_cons, List.flatMap_cons] at heq
      obtain ⟨hhead, htail⟩ := List.append_inj heq hxy.1
      rw [hxy.2 hhead, ih.2 htail]

end Tells

/-- A list and a table have different tags, and equally long counts. -/
theorem value_tells (v : PropertyValue) : Tells value v.normal v := by
  rcases v with s | n | b | items | rows
  · exact tells_refl _
  · exact tells_refl _
  · exact tells_refl _
  · exact tells_refl _
  · cases rows with
    | nil =>
      refine ⟨rfl, fun h => ?_⟩
      have htag : (3 : UInt8) = 4 := (List.cons.inj h).1
      exact absurd htag (by decide)
    | cons row rows => exact tells_refl _

/-- An element and its normal form have encodings of one length, and equal ones only if
they are equal. -/
theorem element_tells (e : Element) : Tells element e.normal e := by
  have hproperties : Tells (List.flatMap property) e.normal.properties.entries
      e.properties.entries := by
    refine tells_flatMap ?_
    rw [Element.normal, OrderedMap.entries_mapValues, List.forall₂_map_left_iff, List.forall₂_same]
    exact fun p _ => Tells.pair (tells_refl p.1) (value_tells p.2)
  have hsize : e.normal.properties.size = e.properties.size := List.length_map _
  have hbytes : element e.normal = text e.kind.identifier ++ text e.name
      ++ (count e.properties.size ++ e.normal.properties.entries.flatMap property) := by
    rw [element, hsize]
    rfl
  constructor
  · rw [hbytes, element]
    simp only [List.length_append, hproperties.1]
  · intro h
    rw [hbytes, element] at h
    have hentries := hproperties.2 (List.append_cancel_left (List.append_cancel_left h))
    have hmap : e.properties.mapValues (·.normal) = e.properties := OrderedMap.ext hentries
    rw [Element.normal, hmap]

/-- A node and its normal form have encodings of one length, and equal ones only if they
are equal. -/
theorem node_tells (n : Node) : Tells node n.normal n := by
  induction n with
  | mk e cs ih =>
    have hforest : Tells (List.flatMap node) (Node.forestNormal cs) cs := by
      refine tells_flatMap ?_
      rw [Node.forestNormal_eq_map, List.forall₂_map_left_iff, List.forall₂_same]
      exact ih
    have hcount : (Node.forestNormal cs).length = cs.length := by
      rw [Node.forestNormal_eq_map, List.length_map]
    constructor
    · rw [Node.normal, node, node, forest_eq_flatMap, forest_eq_flatMap, hcount,
        List.length_append, List.length_append, List.length_append, List.length_append,
        (element_tells e).1, hforest.1]
    · intro h
      rw [Node.normal, node, node, forest_eq_flatMap, forest_eq_flatMap, hcount] at h
      obtain ⟨he, hcs⟩ := List.append_inj h (element_tells e).1
      rw [Node.normal, (element_tells e).2 he, hforest.2 (List.append_cancel_left hcs)]

/-- A tree that is not in normal form is hashed from other bytes than its normal form. -/
theorem tree_normal_iff (t : Tree) : tree t.normal = tree t ↔ t.normal = t := by
  refine ⟨fun h => ?_, congrArg tree⟩
  rcases t with ⟨_ | n⟩
  · rfl
  · have hnode : n.normal = n := (node_tells n).2 (List.append_cancel_left h)
    exact congrArg Tree.ofNode hnode

end Encoding

/-! ## Round trip -/

namespace Tree

/-- The text of a tree is read as the normal form of the tree, with every element
at its path, if it nests at most 127 arrays and objects, and as no tree
otherwise. It is read as the tree itself, with the same digest, exactly if no
element holds an empty table as well; an empty table always changes the bytes
that are hashed. -/
theorem json_round_trip (t : Tree) :
    let answer := TextFormat.json.decode .whole read t.toJson.print
    (answer = if t.toJson.nesting ≤ 127 then .ok t.normal else .error .malformed)
    ∧ (∀ p, t.normal.element? p = (t.element? p).map Element.normal)
    ∧ (answer = .ok t ∧ answer.map digest = .ok t.digest ↔
      t.toJson.nesting ≤ 127 ∧ ¬ t.HoldsEmptyTable)
    ∧ ((∃ u, answer = .ok u ∧ Encoding.tree u = Encoding.tree t) ↔
      t.toJson.nesting ≤ 127 ∧ ¬ t.HoldsEmptyTable) := by
  intro answer
  have hanswer : answer = if t.toJson.nesting ≤ 127 then .ok t.normal else .error .malformed :=
    (yields_read .exact t).decode_print
  refine ⟨hanswer, t.element?_normal, ?_, ?_⟩
  · rw [hanswer]
    by_cases hdeep : t.toJson.nesting ≤ 127
    · rw [if_pos hdeep, Except.ok.injEq, normal_eq_self_iff]
      constructor
      · exact fun h => ⟨hdeep, h.1⟩
      · rintro ⟨-, h⟩
        refine ⟨h, ?_⟩
        rw [t.normal_eq_self_iff.mpr h]
        rfl
    · rw [if_neg hdeep]
      exact ⟨fun h => (nomatch h.1), fun h => absurd h.1 hdeep⟩
  · rw [hanswer]
    by_cases hdeep : t.toJson.nesting ≤ 127
    · rw [if_pos hdeep, ← normal_eq_self_iff, ← Encoding.tree_normal_iff]
      constructor
      · rintro ⟨u, hu, hbytes⟩
        cases hu
        exact ⟨hdeep, hbytes⟩
      · rintro ⟨-, hbytes⟩
        exact ⟨_, rfl, hbytes⟩
    · rw [if_neg hdeep]
      constructor
      · rintro ⟨u, hu, -⟩
        cases hu
      · exact fun h => absurd h.1 hdeep

end Tree

end LoadTest
