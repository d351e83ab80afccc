/-
Maps and elements after many writes.

A map remembers two things about the writes that have made it: under each key the
value of the last one, and for each key the place of the first one. Both can be
read off the list of writes (`OrderedMap.get?_insertAll`,
`OrderedMap.keys_insertAll`), and nothing else of it is left.

An element is written onto from four sources, and `Element.Layered` says what
comes of it: what is forced onto the element stands above what is given for it,
that above the defaults of its kind, and a filler stands only where the defaults
have left a gap.
-/
import LoadTest.Proofs.Element.Document

set_option autoImplicit false

namespace LoadTest

/-! ## Lists without repetition -/

section Lists

variable {α : Type} [DecidableEq α]

theorem eraseDups_of_nodup {as : List α} (h : as.Nodup) : as.eraseDups = as := by
  induction as with
  | nil => rfl
  | cons a as ih =>
    obtain ⟨ha, has⟩ := List.nodup_cons.mp h
    have hkeep : as.filter (fun b => !b == a) = as := by
      refine List.filter_eq_self.mpr fun b hb => ?_
      have hba : b ≠ a := fun hba => ha (hba ▸ hb)
      simpa using hba
    rw [List.eraseDups_cons, hkeep, ih has]

/-- What stands in front already does not count behind. -/
theorem eraseDups_append_congr {as bs cs : List α} (h : bs.removeAll as = cs.removeAll as) :
    (as ++ bs).eraseDups = (as ++ cs).eraseDups := by
  rw [List.eraseDups_append, List.eraseDups_append, h]

end Lists

/-! ## Maps -/

section Maps

variable {α β : Type} [DecidableEq α]

namespace Entries

/-- The value that is written last under a key. -/
def last? (k : α) (es : List (α × β)) : Option β := get? k es.reverse

/-- Of two stretches of entries the first is asked first. -/
theorem get?_append (k : α) (es fs : List (α × β)) :
    get? k (es ++ fs) = (get? k es).or (get? k fs) := by
  induction es with
  | nil => rfl
  | cons e es ih =>
    obtain ⟨k', v⟩ := e
    rw [List.cons_append, get?_cons, get?_cons, ih]
    by_cases h : k' = k
    · rw [if_pos h, if_pos h]
      rfl
    · rw [if_neg h, if_neg h]

/-- Leaving out the entries of some keys leaves these keys without a value, and the
others with theirs. -/
theorem get?_filter (k : α) (keep : α → Bool) (es : List (α × β)) :
    get? k (es.filter fun e => keep e.1) = if keep k then get? k es else none := by
  induction es with
  | nil => exact (ite_self none).symm
  | cons e es ih =>
    obtain ⟨k', v⟩ := e
    by_cases hkeep : keep k' = true
    · rw [List.filter_cons_of_pos (by simpa using hkeep), get?_cons, get?_cons, ih]
      by_cases hk : k' = k
      · rw [if_pos hk, if_pos hk, if_pos (hk ▸ hkeep)]
      · rw [if_neg hk, if_neg hk]
    · rw [List.filter_cons_of_neg (by simpa using hkeep), get?_cons, ih]
      by_cases hk : k' = k
      · rw [if_neg (hk ▸ hkeep), if_neg (hk ▸ hkeep)]
      · rw [if_neg hk]

theorem last?_singleton (k k' : α) (v : β) :
    last? k [(k', v)] = if k' = k then some v else none := rfl

/-- Of two stretches of entries the second has the last word. -/
theorem last?_append (k : α) (es fs : List (α × β)) :
    last? k (es ++ fs) = (last? k fs).or (last? k es) := by
  rw [last?, List.reverse_append, get?_append]
  rfl

/-- The first entry has the last word only if no other has the key. -/
theorem last?_cons (k : α) (e : α × β) (es : List (α × β)) :
    last? k (e :: es) = (last? k es).or (last? k [e]) := last?_append k [e] es

/-- Leaving out whole keys does not change what is last under the others. -/
theorem last?_filter (k : α) (keep : α → Bool) (es : List (α × β)) :
    last? k (es.filter fun e => keep e.1) = if keep k then last? k es else none := by
  rw [last?, ← List.filter_reverse, get?_filter]
  rfl

end Entries

namespace OrderedMap

/-- A map has a key exactly if it is among its keys. -/
theorem contains_eq_elem (m : OrderedMap α β) (k : α) : m.contains k = m.keys.elem k := by
  rw [contains, Bool.eq_iff_iff, List.elem_iff, ← Option.ne_none_iff_isSome, Ne,
    get?_eq_none_iff, not_not]

theorem insertAll_cons (m : OrderedMap α β) (w : α × β) (ws : List (α × β)) :
    m.insertAll (w :: ws) = (m.insert w.1 w.2).2.insertAll ws := rfl

theorem insertAll_append (m : OrderedMap α β) (vs ws : List (α × β)) :
    m.insertAll (vs ++ ws) = (m.insertAll vs).insertAll ws := List.foldl_append

/-- The last write under a key decides, and without one the map as it was. -/
theorem get?_insertAll (m : OrderedMap α β) (ws : List (α × β)) (k : α) :
    (m.insertAll ws).get? k = (Entries.last? k ws).or (m.get? k) := by
  induction ws generalizing m with
  | nil => rfl
  | cons w ws ih =>
    obtain ⟨k', v⟩ := w
    rw [insertAll_cons, ih, get?_insert, Entries.last?_cons, Entries.last?_singleton,
      Option.or_assoc]
    by_cases h : k' = k
    · rw [if_pos h, if_pos h]
      rfl
    · rw [if_neg h, if_neg h]
      rfl

/-- A key has the place at which it was written first. -/
theorem keys_insertAll (m : OrderedMap α β) (ws : List (α × β)) :
    (m.insertAll ws).keys = (m.keys ++ ws.map Prod.fst).eraseDups := by
  induction ws generalizing m with
  | nil =>
    rw [List.map_nil, List.append_nil]
    exact (eraseDups_of_nodup m.keys_nodup).symm
  | cons w ws ih =>
    obtain ⟨k, v⟩ := w
    rw [insertAll_cons, ih, keys_insert, List.map_cons]
    by_cases h : k ∈ m.keys
    · rw [if_pos h]
      refine (eraseDups_append_congr ?_).symm
      simp [List.removeAll, h]
    · rw [if_neg h, List.append_assoc, List.singleton_append]

end OrderedMap

end Maps

/-! ## Elements -/

/-- The properties of a new element are the defaults of its kind. -/
theorem ElementDefaults.properties_newElement (d : ElementDefaults) (kind : ElementKind) :
    (d.newElement kind).properties = d.propertiesOf kind :=
  OrderedMap.ofList_entries (d.propertiesOf kind)

namespace Element

/-- The properties of an element come from four sources. The value under a key is
the last one that is forced, else the last one that is given, else the default,
else the last one of the filler. The keys come in the order in which the sources
name them first: defaults, filler, given, forced. -/
structure Layered (e : Element) (defaults : PropertyMap)
    (filler given forced : List (String × PropertyValue)) : Prop where
  property? (k : String) :
    e.property? k = (Entries.last? k forced <|> Entries.last? k given <|> defaults.get? k
      <|> Entries.last? k filler)
  keys :
    e.properties.keys
      = (defaults.keys ++ (filler ++ given ++ forced).map Prod.fst).eraseDups
  keys_nodup : e.properties.keys.Nodup

/-- Writing the filler where there is no default, then what is given and then what
is forced, puts the sources in layers. -/
theorem layered_of_writes {e : Element} {defaults : PropertyMap}
    {filler given forced : List (String × PropertyValue)}
    (h : e.properties = defaults.insertAll
      (filler.filter (fun w => !defaults.contains w.1) ++ given ++ forced)) :
    e.Layered defaults filler given forced := by
  refine ⟨?_, ?_, e.properties.keys_nodup⟩
  · intro k
    rw [Element.property?, h, OrderedMap.get?_insertAll, Entries.last?_append,
      Entries.last?_append, Entries.last?_filter k (fun k => !defaults.contains k)]
    simp only [Option.or_assoc, Option.orElse_eq_orElse, Option.orElse_eq_or]
    -- either there is a default or the filler is written
    rcases hk : defaults.get? k with _ | v <;> simp [OrderedMap.contains, hk]
  · rw [h, OrderedMap.keys_insertAll]
    refine eraseDups_append_congr ?_
    -- what is left out of the filler is what stands among the defaults already
    simp only [List.removeAll, List.map_append, List.filter_append, OrderedMap.contains_eq_elem,
      List.filter_map, List.filter_filter, Function.comp_def, Bool.and_self]

end Element

end LoadTest
