/-
Maps that remember the order in which their keys arrived.

An `OrderedMap` is a list of entries without a repeated key. Writing a key that
is present keeps its position and replaces its value; writing a new key puts it
last; erasing a key closes the gap. Everything that is printed, hashed or
replayed from such a map depends on that order, so the list of entries is the
map's only view and each operation below says what it does to it.
-/

set_option autoImplicit false

namespace LoadTest

variable {α β : Type} [DecidableEq α]

/-! ## Entry lists

The operations on bare lists of entries. Each walks the list once and answers
with the value it displaced. -/

namespace Entries

/-- The value stored under a key: that of its first entry. -/
def get? (k : α) : List (α × β) → Option β
  | [] => none
  | (k', v) :: rest => if k' = k then some v else get? k rest

/-- Write a value under a key: in place when the key is present, at the end
otherwise. The first component is the value that was there before. -/
def put (k : α) (v : β) : List (α × β) → Option β × List (α × β)
  | [] => (none, [(k, v)])
  | (k', v') :: rest =>
    if k' = k then (some v', (k', v) :: rest)
    else ((put k v rest).1, (k', v') :: (put k v rest).2)

/-- Drop a key, keeping the order of the others. The first component is the
value that was there before. -/
def drop (k : α) : List (α × β) → Option β × List (α × β)
  | [] => (none, [])
  | (k', v') :: rest =>
    if k' = k then (some v', rest)
    else ((drop k rest).1, (k', v') :: (drop k rest).2)

@[simp] theorem get?_nil (k : α) : get? k ([] : List (α × β)) = none := rfl

theorem get?_cons (k k' : α) (v : β) (rest : List (α × β)) :
    get? k ((k', v) :: rest) = if k' = k then some v else get? k rest := rfl

/-- Nothing is found exactly under the keys that no entry has. -/
theorem get?_eq_none_iff (k : α) (es : List (α × β)) :
    get? k es = none ↔ k ∉ es.map Prod.fst := by
  induction es with
  | nil => simp
  | cons e rest ih =>
    obtain ⟨k', v⟩ := e
    by_cases h : k' = k
    · simp [get?_cons, h]
    · simp [get?_cons, h, ih, Ne.symm h]

/-- What `put` answers is what was stored. -/
theorem put_fst (k : α) (v : β) (es : List (α × β)) : (put k v es).1 = get? k es := by
  induction es with
  | nil => rfl
  | cons e rest ih =>
    obtain ⟨k', v'⟩ := e
    by_cases h : k' = k
    · simp [put, get?_cons, h]
    · simp [put, get?_cons, h, ih]

/-- Writing keeps the keys and their order, and adds a new key at the end. -/
theorem keys_put (k : α) (v : β) (es : List (α × β)) :
    (put k v es).2.map Prod.fst
      = if k ∈ es.map Prod.fst then es.map Prod.fst else es.map Prod.fst ++ [k] := by
  induction es with
  | nil => simp [put]
  | cons e rest ih =>
    obtain ⟨k', v'⟩ := e
    by_cases h : k' = k
    · simp [put, h]
    · have h' : ¬ k = k' := fun hk => h hk.symm
      by_cases hm : k ∈ rest.map Prod.fst
      · simp only [put, if_neg h, List.map_cons, ih, List.mem_cons, hm, or_true, if_true]
      · have hn : ¬ (k = k' ∨ k ∈ rest.map Prod.fst) := by
          rintro (hk | hk)
          · exact h' hk
          · exact hm hk
        simp only [put, if_neg h, List.map_cons, ih, if_neg hm, List.mem_cons, if_neg hn,
          List.cons_append]

/-- What was put under a key is found there, and everything else where it was. -/
theorem get?_put (k k' : α) (v : β) (es : List (α × β)) :
    get? k' (put k v es).2 = if k = k' then some v else get? k' es := by
  induction es with
  | nil => simp [put, get?_cons]
  | cons e rest ih =>
    obtain ⟨k₀, v₀⟩ := e
    by_cases h : k₀ = k
    · subst h
      by_cases h' : k₀ = k'
      · simp [put, get?_cons, h']
      · simp [put, get?_cons, h']
    · by_cases h' : k₀ = k'
      · have hk : ¬ k = k' := fun hk => h (h'.trans hk.symm)
        simp only [put, if_neg h, get?_cons, if_pos h', if_neg hk]
      · simp [put, h, get?_cons, h', ih]

/-- What `drop` answers is what was stored. -/
theorem drop_fst (k : α) (es : List (α × β)) : (drop k es).1 = get? k es := by
  induction es with
  | nil => rfl
  | cons e rest ih =>
    obtain ⟨k', v'⟩ := e
    by_cases h : k' = k
    · simp [drop, get?_cons, h]
    · simp [drop, get?_cons, h, ih]

/-- Erasing takes the key out of the key list and leaves the rest in order. -/
theorem keys_drop (k : α) (es : List (α × β)) :
    (drop k es).2.map Prod.fst = (es.map Prod.fst).erase k := by
  induction es with
  | nil => rfl
  | cons e rest ih =>
    obtain ⟨k', v'⟩ := e
    by_cases h : k' = k
    · simp [drop, h]
    · rw [List.map_cons, List.erase_cons_tail (by simpa using h)]
      simp [drop, h, ih]

/-- Only the dropped key loses its value, since no key stands twice. -/
theorem get?_drop {es : List (α × β)} (h : (es.map Prod.fst).Nodup) (k k' : α) :
    get? k' (drop k es).2 = if k = k' then none else get? k' es := by
  induction es with
  | nil => exact (ite_self none).symm
  | cons e rest ih =>
    obtain ⟨k₀, v₀⟩ := e
    obtain ⟨hnew, hrest⟩ := List.nodup_cons.mp h
    by_cases hk : k₀ = k
    · subst hk
      rw [drop, if_pos rfl, get?_cons]
      by_cases hk' : k₀ = k'
      · rw [if_pos hk', ← hk', get?_eq_none_iff]
        exact hnew
      · rw [if_neg hk', if_neg hk']
    · rw [drop, if_neg hk, get?_cons, get?_cons, ih hrest]
      by_cases hk' : k₀ = k'
      · rw [if_pos hk', if_pos hk', if_neg (fun h => hk (hk'.trans h.symm))]
      · rw [if_neg hk', if_neg hk']

/-- Putting an entry never makes a key occur twice. -/
theorem nodup_put {k : α} {v : β} {es : List (α × β)} (h : (es.map Prod.fst).Nodup) :
    ((put k v es).2.map Prod.fst).Nodup := by
  rw [keys_put]
  by_cases hm : k ∈ es.map Prod.fst
  · rwa [if_pos hm]
  · rw [if_neg hm, List.nodup_append]
    refine ⟨h, by simp, ?_⟩
    intro a ha b hb hab
    rw [List.mem_singleton] at hb
    exact hm (hb ▸ hab ▸ ha)

theorem nodup_drop {k : α} {es : List (α × β)} (h : (es.map Prod.fst).Nodup) :
    ((drop k es).2.map Prod.fst).Nodup := by
  rw [keys_drop]
  exact h.erase k

end Entries

/-! ## The map -/

/-- Entries in order of arrival, no key twice. -/
structure OrderedMap (α β : Type) where
  /-- The entries, oldest key first. -/
  entries : List (α × β)
  /-- No key stands twice. -/
  keys_nodup : (entries.map Prod.fst).Nodup
  deriving DecidableEq

namespace OrderedMap

omit [DecidableEq α] in
/-- A map is determined by its entries and their order. -/
theorem ext {m n : OrderedMap α β} (h : m.entries = n.entries) : m = n := by
  cases m
  cases n
  cases h
  rfl

/-- The map without entries. -/
def empty : OrderedMap α β := ⟨[], List.nodup_nil⟩

instance : Inhabited (OrderedMap α β) := ⟨empty⟩

/-- The keys in order. -/
def keys (m : OrderedMap α β) : List α := m.entries.map Prod.fst

/-- The number of entries. -/
def size (m : OrderedMap α β) : Nat := m.entries.length

/-- Whether there is no entry. -/
def isEmpty (m : OrderedMap α β) : Bool := m.entries.isEmpty

/-- The value under a key. -/
def get? (m : OrderedMap α β) (k : α) : Option β := Entries.get? k m.entries

/-- Whether the key has a value. -/
def contains (m : OrderedMap α β) (k : α) : Bool := (m.get? k).isSome

/-- Write a value under a key, and answer with the value it displaces. -/
def insert (m : OrderedMap α β) (k : α) (v : β) : Option β × OrderedMap α β :=
  ((Entries.put k v m.entries).1, ⟨(Entries.put k v m.entries).2, Entries.nodup_put m.keys_nodup⟩)

/-- Take a key out, and answer with the value it had. -/
def erase (m : OrderedMap α β) (k : α) : Option β × OrderedMap α β :=
  ((Entries.drop k m.entries).1, ⟨(Entries.drop k m.entries).2, Entries.nodup_drop m.keys_nodup⟩)

/-- The entries written one after another onto a map. -/
def insertAll (m : OrderedMap α β) (es : List (α × β)) : OrderedMap α β :=
  es.foldl (fun m e => (m.insert e.1 e.2).2) m

/-- The map that a list of entries builds from nothing. -/
def ofList (es : List (α × β)) : OrderedMap α β := empty.insertAll es

/-- Equal as finite functions: the order of the entries does not count. -/
def same [DecidableEq β] (m n : OrderedMap α β) : Bool :=
  m.size == n.size && m.entries.all fun e => n.get? e.1 == some e.2

omit [DecidableEq α] in
@[simp] theorem entries_empty : (empty : OrderedMap α β).entries = [] := rfl

omit [DecidableEq α] in
@[simp] theorem keys_empty : (empty : OrderedMap α β).keys = [] := rfl

@[simp] theorem get?_empty (k : α) : (empty : OrderedMap α β).get? k = none := rfl

/-- What `insert` answers is what was stored. -/
@[simp] theorem insert_fst (m : OrderedMap α β) (k : α) (v : β) : (m.insert k v).1 = m.get? k :=
  Entries.put_fst k v m.entries

/-- What was inserted under a key is found there, and everything else where it was. -/
theorem get?_insert (m : OrderedMap α β) (k k' : α) (v : β) :
    (m.insert k v).2.get? k' = if k = k' then some v else m.get? k' :=
  Entries.get?_put k k' v m.entries

/-- An overwritten key keeps its place and a new key goes last. -/
theorem keys_insert (m : OrderedMap α β) (k : α) (v : β) :
    (m.insert k v).2.keys = if k ∈ m.keys then m.keys else m.keys ++ [k] :=
  Entries.keys_put k v m.entries

/-- What `erase` answers is what was stored. -/
@[simp] theorem erase_fst (m : OrderedMap α β) (k : α) : (m.erase k).1 = m.get? k :=
  Entries.drop_fst k m.entries

/-- Nothing is found under an erased key, and everything else where it was. -/
theorem get?_erase (m : OrderedMap α β) (k k' : α) :
    (m.erase k).2.get? k' = if k = k' then none else m.get? k' :=
  Entries.get?_drop m.keys_nodup k k'

/-- The other keys keep their order. -/
theorem keys_erase (m : OrderedMap α β) (k : α) : (m.erase k).2.keys = m.keys.erase k :=
  Entries.keys_drop k m.entries

theorem get?_eq_none_iff (m : OrderedMap α β) (k : α) : m.get? k = none ↔ k ∉ m.keys :=
  Entries.get?_eq_none_iff k m.entries

end OrderedMap

end LoadTest
