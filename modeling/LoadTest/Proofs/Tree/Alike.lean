/-
What it is for two trees to be alike.

Likeness is equality up to the order in which elements list their properties.
Two maps are the same function exactly when their entries are the same up to
order (`OrderedMap.same_iff_perm`), and likeness of trees is likeness of the
elements at every path (`Tree.alike_iff`). So what likeness leaves open between
two trees is the order of properties at some path, and nothing else.
-/
import LoadTest.Proofs.Tree.Lookup
import Mathlib.Data.List.Perm.Subperm

set_option autoImplicit false

namespace LoadTest

/-! ## Maps -/

section Maps

variable {α β : Type} [DecidableEq α]

/-- An entry stands in a list exactly when its value is the one stored under its
key, provided that no key stands twice. -/
theorem Entries.get?_eq_some_iff {es : List (α × β)} (hes : (es.map Prod.fst).Nodup) (k : α)
    (v : β) : Entries.get? k es = some v ↔ (k, v) ∈ es := by
  induction es with
  | nil => simp
  | cons e rest ih =>
    obtain ⟨k', v'⟩ := e
    rw [List.map_cons, List.nodup_cons] at hes
    rw [Entries.get?_cons, List.mem_cons, Prod.mk.injEq]
    by_cases hk : k' = k
    · subst hk
      have hnot : (k', v) ∉ rest := by
        intro h
        have hk' : Prod.fst (k', v) ∈ rest.map Prod.fst := List.mem_map_of_mem h
        exact hes.1 hk'
      simp [hnot, eq_comm]
    · have hk' : ¬ k = k' := fun h => hk h.symm
      simp [hk, hk', ih hes.2]

namespace OrderedMap

theorem get?_eq_some_iff (m : OrderedMap α β) (k : α) (v : β) :
    m.get? k = some v ↔ (k, v) ∈ m.entries :=
  Entries.get?_eq_some_iff m.keys_nodup k v

omit [DecidableEq α] in
theorem nodup_entries (m : OrderedMap α β) : m.entries.Nodup := by
  refine List.Pairwise.of_map Prod.fst ?_ m.keys_nodup
  intro a b hab h
  exact hab (congrArg Prod.fst h)

/-- Maps are the same as finite functions exactly when they have the same
entries up to order. -/
theorem same_iff_perm [DecidableEq β] (m n : OrderedMap α β) :
    m.same n = true ↔ m.entries.Perm n.entries := by
  have hall : (m.entries.all fun e => n.get? e.1 == some e.2) = true ↔ m.entries ⊆ n.entries := by
    rw [List.all_eq_true]
    constructor
    · intro h e he
      exact (get?_eq_some_iff n e.1 e.2).mp (by simpa using h e he)
    · intro h e he
      simpa using (get?_eq_some_iff n e.1 e.2).mpr (h he)
  rw [same, Bool.and_eq_true, hall, size, size, beq_iff_eq]
  -- a list without repetition that lies in another one of the same length is all of it
  constructor
  · rintro ⟨hlen, hsub⟩
    exact (List.subperm_of_subset m.nodup_entries hsub).perm_of_length_le (by omega)
  · intro h
    exact ⟨h.length_eq, h.subset⟩

end OrderedMap

end Maps

/-! ## Elements -/

/-- Alike elements differ at most in the order of their properties. -/
theorem Element.alike_iff (a b : Element) :
    a.alike b = true ↔
      a.kind = b.kind ∧ a.name = b.name ∧ a.properties.entries.Perm b.properties.entries := by
  rw [Element.alike, Bool.and_eq_true, Bool.and_eq_true, beq_iff_eq, beq_iff_eq,
    OrderedMap.same_iff_perm, and_assoc]

/-- Alike elements are equal as soon as they list their properties in the same
order. -/
theorem Element.eq_of_alike {a b : Element} (h : a.alike b = true)
    (hp : a.properties.entries = b.properties.entries) : a = b := by
  obtain ⟨hk, hn, -⟩ := (Element.alike_iff a b).mp h
  obtain ⟨k, n, ps⟩ := a
  obtain ⟨k', n', ps'⟩ := b
  have hps : ps = ps' := OrderedMap.ext hp
  subst hk hn hps
  rfl

/-! ## Nodes and trees -/

/-- Subtrees are alike one by one, and equally many. -/
theorem Node.forestAlike_iff (ms ns : List Node) :
    Node.forestAlike ms ns = true
      ↔ ∀ i : Nat, Option.Rel (fun m n => Node.alike m n = true) ms[i]? ns[i]? := by
  induction ms generalizing ns with
  | nil =>
    rcases ns with _ | ⟨n, ns⟩
    · simp [Node.forestAlike]
    · constructor
      · intro h
        cases h
      · intro h
        cases h 0
  | cons m ms ih =>
    rcases ns with _ | ⟨n, ns⟩
    · constructor
      · intro h
        cases h
      · intro h
        cases h 0
    · rw [Node.forestAlike, Bool.and_eq_true, ih]
      constructor
      · rintro ⟨hmn, hrest⟩ i
        cases i with
        | zero => exact .some hmn
        | succ i => exact hrest i
      · intro h
        refine ⟨?_, fun i => h (i + 1)⟩
        cases h 0 with
        | some hmn => exact hmn

/-- Nodes are alike exactly when the elements at every path are. -/
theorem Node.alike_iff (m n : Node) :
    m.alike n = true ↔
      ∀ p, Option.Rel (fun a b => Element.alike a b = true)
        ((m.get? p).map Node.element) ((n.get? p).map Node.element) := by
  induction m generalizing n with
  | mk e cs ih =>
    obtain ⟨e', cs'⟩ := n
    rw [Node.alike, Bool.and_eq_true, Node.forestAlike_iff]
    constructor
    · rintro ⟨he, hcs⟩ p
      rcases p with _ | ⟨i, p⟩
      · exact .some he
      · rw [Node.get?_cons, Node.get?_cons, Node.children_mk, Node.children_mk]
        have hi := hcs i
        rcases hc : cs[i]? with _ | c
        · rw [hc] at hi
          generalize cs'[i]? = o at hi
          cases hi
          exact .none
        · rw [hc] at hi
          generalize cs'[i]? = o at hi
          cases hi with
          | some hcc' => exact (ih c (List.mem_of_getElem? hc) _).mp hcc' p
    · intro h
      refine ⟨?_, ?_⟩
      · cases h [] with
        | some he => exact he
      · intro i
        have hi := fun p => h (i :: p)
        simp only [Node.get?_cons, Node.children_mk] at hi
        -- the root of child `i` tells whether there is one, the paths below it that it is alike
        rcases hc : cs[i]? with _ | c
        · rw [hc] at hi
          rcases hc' : cs'[i]? with _ | c'
          · exact .none
          · rw [hc'] at hi
            cases hi []
        · rw [hc] at hi
          rcases hc' : cs'[i]? with _ | c'
          · rw [hc'] at hi
            cases hi []
          · rw [hc'] at hi
            exact .some ((ih c (List.mem_of_getElem? hc) c').mpr hi)

/-- Trees are alike exactly when the elements at every path are. -/
theorem Tree.alike_iff (s t : Tree) :
    s.alike t = true ↔
      ∀ p, Option.Rel (fun a b => Element.alike a b = true) (s.element? p) (t.element? p) := by
  obtain ⟨a⟩ := s
  obtain ⟨b⟩ := t
  rcases a with _ | m
  · rcases b with _ | n
    · exact ⟨fun _ _ => .none, fun _ => rfl⟩
    · constructor
      · intro h
        cases h
      · intro h
        cases h []
  · rcases b with _ | n
    · constructor
      · intro h
        cases h
      · intro h
        cases h []
    · exact Node.alike_iff m n

end LoadTest
