/-
Paths into a tree.

A path is the list of child indexes that leads from the root to a node; the
root has the empty path. Paths are compared lexicographically, which is the
order in which a pre-order traversal meets them, and a path is an ancestor of
another if it is a proper beginning of it.
-/

set_option autoImplicit false

namespace LoadTest

/-- Child indexes from the root down to a node. -/
abbrev Path := List Nat

namespace Path

/-- The path of the root. -/
def root : Path := []

/-- Whether the path is the root's. -/
def isRoot (p : Path) : Bool := p.isEmpty

/-- The path of a child of the node at `p`. -/
def child (p : Path) (i : Nat) : Path := p ++ [i]

/-- The path one level up; the root has none. -/
def parent? (p : Path) : Option Path := if p.isEmpty then none else some p.dropLast

/-- The index of the node among its siblings; the root has none. -/
def last? (p : Path) : Option Nat := p.getLast?

/-- Whether the node at `q` lies strictly below the node at `p`. -/
def isAncestorOf (p q : Path) : Bool := p.isPrefixOf q && p.length < q.length

/-- Lexicographic comparison. -/
def cmp (p q : Path) : Ordering := if p < q then .lt else if p = q then .eq else .gt

@[simp] theorem parent?_root : parent? [] = none := rfl

@[simp] theorem parent?_child (p : Path) (i : Nat) : (p.child i).parent? = some p := by
  simp [parent?, child]

@[simp] theorem last?_child (p : Path) (i : Nat) : (p.child i).last? = some i := by
  simp [last?, child]

theorem root_or_child (p : Path) : p = root ∨ ∃ q i, p = child q i := by
  rcases List.eq_nil_or_concat p with rfl | ⟨q, i, rfl⟩
  · exact .inl rfl
  · exact .inr ⟨q, i, List.concat_eq_append⟩

/-- Every path but the root's is a child of its parent. -/
theorem eq_child_of_parent? {p q : Path} (h : p.parent? = some q) :
    ∃ i, p.last? = some i ∧ p = q.child i := by
  rcases p.root_or_child with rfl | ⟨r, i, rfl⟩
  · cases h
  · rw [parent?_child] at h
    obtain rfl := Option.some.inj h
    exact ⟨i, last?_child r i, rfl⟩

theorem isAncestorOf_iff (p q : Path) : p.isAncestorOf q = true ↔ p <+: q ∧ p ≠ q := by
  simp only [isAncestorOf, Bool.and_eq_true, List.isPrefixOf_iff_prefix, decide_eq_true_eq]
  constructor
  · rintro ⟨hp, hl⟩
    exact ⟨hp, fun h => by simp [h] at hl⟩
  · rintro ⟨hp, hne⟩
    refine ⟨hp, Nat.lt_of_le_of_ne hp.length_le ?_⟩
    exact fun h => hne (hp.eq_of_length h)

end Path

end LoadTest
