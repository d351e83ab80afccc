/-
Elements created from registered defaults.

Defaults are registered under a kind and a key, in any order of kinds. What is
registered for one kind does not touch the others (`ElementDefaults.propertiesOf_set`),
so the defaults of a kind come from its own registrations alone
(`ElementDefaults.registered`), and a new element is the bare one with these set on
it. That there are two levels, a table of kinds and a map of properties in each, can
no longer be seen in the element; nor can a kind that is listed without properties.
-/
import LoadTest.Proofs.Element.Writes

set_option autoImplicit false

namespace LoadTest

/-- Properties are set one after another. -/
theorem Element.foldl_withProperty (e : Element) (ws : List (String × PropertyValue)) :
    ws.foldl (fun e w => e.withProperty w.1 w.2) e = e.withProperties ws := by
  induction ws generalizing e with
  | nil => rfl
  | cons w ws ih => exact ih (e.withProperty w.1 w.2)

namespace ElementDefaults

/-! ## Kinds that are listed -/

theorem mem_toList {d : ElementDefaults} {e : ElementKind × PropertyMap} :
    e ∈ d.toList ↔ d.forKind e.1 = some e.2 := by
  simp only [toList, List.mem_filterMap, Option.map_eq_some_iff]
  constructor
  · rintro ⟨k, -, m, hm, rfl⟩
    exact hm
  · intro he
    exact ⟨e.1, e.1.mem_all, e.2, he, rfl⟩

/-- A kind that is listed without properties is as good as one that is not listed. -/
theorem isEmpty_iff (d : ElementDefaults) :
    d.isEmpty = true ↔ ∀ kind, d.propertiesOf kind = .empty := by
  rw [isEmpty, List.all_eq_true]
  constructor
  · intro h kind
    rw [propertiesOf]
    cases hkind : d.forKind kind with
    | none => rfl
    | some m =>
      have hm : m.isEmpty = true := h (kind, m) (mem_toList.mpr hkind)
      exact OrderedMap.ext (List.isEmpty_iff.mp hm)
  · intro h e he
    have hkind := h e.1
    rw [propertiesOf, mem_toList.mp he, Option.getD_some] at hkind
    rw [hkind]
    rfl

theorem newElement_eq (d : ElementDefaults) (kind : ElementKind) :
    d.newElement kind = ⟨kind, kind.defaultName, d.propertiesOf kind⟩ :=
  congrArg (Element.mk kind kind.defaultName) (d.properties_newElement kind)

/-- Only default properties tell a new element from the bare one. -/
theorem newElement_eq_new_iff (d : ElementDefaults) (kind : ElementKind) :
    d.newElement kind = .new kind ↔ d.propertiesOf kind = .empty := by
  rw [newElement_eq, Element.new, Element.mk.injEq, and_iff_right rfl, and_iff_right rfl]

/-! ## Registrations -/

/-- The keys and values that are registered for a kind, in order. -/
def registered (kind : ElementKind) (rs : List (ElementKind × String × PropertyValue)) :
    List (String × PropertyValue) :=
  (rs.filter (·.1 = kind)).map Prod.snd

/-- Registrations in another order, of which those for the same kind are not exchanged. -/
inductive Reordered : List (ElementKind × String × PropertyValue) →
    List (ElementKind × String × PropertyValue) → Prop
  | nil : Reordered [] []
  | cons (r : ElementKind × String × PropertyValue)
      {rs rs' : List (ElementKind × String × PropertyValue)} (h : Reordered rs rs') :
      Reordered (r :: rs) (r :: rs')
  | swap {r r' : ElementKind × String × PropertyValue} (h : r.1 ≠ r'.1)
      (rs : List (ElementKind × String × PropertyValue)) :
      Reordered (r :: r' :: rs) (r' :: r :: rs)
  | trans {rs rs' rs'' : List (ElementKind × String × PropertyValue)} (h : Reordered rs rs')
      (h' : Reordered rs' rs'') : Reordered rs rs''

variable (d : ElementDefaults) (kind : ElementKind)
  (rs : List (ElementKind × String × PropertyValue))

theorem registered_cons (r : ElementKind × String × PropertyValue) :
    registered kind (r :: rs)
      = if r.1 = kind then r.2 :: registered kind rs else registered kind rs := by
  by_cases h : r.1 = kind
  · rw [if_pos h, registered, List.filter_cons_of_pos (by simpa using h)]
    rfl
  · rw [if_neg h, registered, List.filter_cons_of_neg (by simpa using h)]
    rfl

variable {rs} in
/-- What is registered for a kind does not depend on where the other kinds stand. -/
theorem registered_of_reordered {rs' : List (ElementKind × String × PropertyValue)}
    (h : Reordered rs rs') : registered kind rs = registered kind rs' := by
  induction h with
  | nil => rfl
  | cons r _ ih => rw [registered_cons, registered_cons, ih]
  | @swap r r' h rs =>
    rw [registered_cons, registered_cons, registered_cons, registered_cons]
    -- the kinds are different, so at most one of them is this one
    by_cases hr : r.1 = kind
    · have hr' : r'.1 ≠ kind := fun hr' => h (hr.trans hr'.symm)
      rw [if_pos hr, if_pos hr, if_neg hr', if_neg hr']
    · rw [if_neg hr, if_neg hr]
  | trans _ _ ih ih' => exact ih.trans ih'

/-- A registration changes the defaults of its kind only. -/
theorem propertiesOf_set (kind' : ElementKind) (key : String) (v : PropertyValue) :
    (d.set kind' key v).propertiesOf kind
      = if kind' = kind then ((d.propertiesOf kind).insert key v).2 else d.propertiesOf kind := by
  change (if kind = kind' then some _ else d.forKind kind).getD .empty = _
  by_cases h : kind' = kind
  · subst h
    rw [if_pos rfl, if_pos rfl]
    rfl
  · rw [if_neg h, if_neg (Ne.symm h)]
    rfl

/-- The defaults of a kind come from what is registered for it. -/
theorem propertiesOf_setAll :
    (d.setAll rs).propertiesOf kind = (d.propertiesOf kind).insertAll (registered kind rs) := by
  -- each registration changes the defaults that the others meet
  induction rs generalizing d with
  | nil => rfl
  | cons r rs ih =>
    refine (ih (d.set r.1 r.2.1 r.2.2)).trans ?_
    rw [propertiesOf_set, registered_cons]
    by_cases h : r.1 = kind
    · rw [if_pos h, if_pos h]
      rfl
    · rw [if_neg h, if_neg h]

/-- A new element has the properties that are registered for its kind, set one after
another on what it is without them. -/
theorem newElement_setAll :
    (d.setAll rs).newElement kind
      = (registered kind rs).foldl (fun e w => e.withProperty w.1 w.2) (d.newElement kind) := by
  rw [Element.foldl_withProperty, newElement_eq, newElement_eq, propertiesOf_setAll]
  rfl

/-- A new element depends on the registrations for its own kind alone: these are set
on it one after another, whatever is registered for other kinds and in between. So
registrations for different kinds can be exchanged; of those for one key the last
gives the value and the first the place. There are no defaults if and only if every
new element is the bare one, also if kinds are listed without properties. -/
theorem defaults_are_isolated :
    (empty.setAll rs).newElement kind
      = (registered kind rs).foldl (fun e w => e.withProperty w.1 w.2) (.new kind)
    ∧ (d.setAll rs).newElement kind
      = (registered kind rs).foldl (fun e w => e.withProperty w.1 w.2) (d.newElement kind)
    ∧ (∀ rs', Reordered rs rs' → (d.setAll rs').newElement kind = (d.setAll rs).newElement kind)
    ∧ (∀ key, ((empty.setAll rs).newElement kind).property? key
        = Entries.last? key (registered kind rs))
    ∧ ((empty.setAll rs).newElement kind).properties.keys
      = ((registered kind rs).map Prod.fst).eraseDups
    ∧ (d.isEmpty = true ↔ ∀ kind, d.newElement kind = .new kind) := by
  have hproperties : ((empty.setAll rs).newElement kind).properties
      = OrderedMap.ofList (registered kind rs) := by
    rw [properties_newElement, propertiesOf_setAll]
    rfl
  refine ⟨newElement_setAll empty kind rs, newElement_setAll d kind rs, fun rs' h => ?_,
    fun key => ?_, ?_, ?_⟩
  · rw [newElement_setAll, newElement_setAll, registered_of_reordered kind h]
  · rw [Element.property?, hproperties, OrderedMap.ofList, OrderedMap.get?_insertAll]
    exact Option.or_none
  · rw [hproperties, OrderedMap.ofList, OrderedMap.keys_insertAll]
    rfl
  · rw [isEmpty_iff]
    simp only [newElement_eq_new_iff]

/-- A key of thread groups that is registered twice, with a registration for plans in
between or in front. -/
theorem interleaved_registrations_agree :
    let rs : List (ElementKind × String × PropertyValue) :=
      [(.threadGroup, "loops", .integer 1), (.threadGroup, "users", .integer 5),
        (.testPlan, "users", .bool true), (.threadGroup, "loops", .integer 2)]
    let rs' : List (ElementKind × String × PropertyValue) :=
      [(.testPlan, "users", .bool true), (.threadGroup, "loops", .integer 1),
        (.threadGroup, "users", .integer 5), (.threadGroup, "loops", .integer 2)]
    Reordered rs rs'
    ∧ (empty.setAll rs').newElement .threadGroup = (empty.setAll rs).newElement .threadGroup
    ∧ (empty.setAll rs).newElement .threadGroup = ⟨.threadGroup, "Thread Group",
        ⟨[("loops", .integer 2), ("users", .integer 5)], by decide⟩⟩ := by
  intro rs rs'
  have hreordered : Reordered rs rs' := .trans (.cons _ (.swap (by decide) _)) (.swap (by decide) _)
  obtain ⟨-, -, hagree, -⟩ := defaults_are_isolated empty .threadGroup rs
  exact ⟨hreordered, hagree rs' hreordered, rfl⟩

/-- A text that lists a kind without properties gives no defaults. -/
example : ∃ d, Json.decode read "\x7b\"thread_group\": \x7b\x7d\x7d" = .ok d
    ∧ d.forKind .threadGroup = some .empty ∧ d.isEmpty = true := ⟨_, rfl, rfl, rfl⟩

end ElementDefaults

end LoadTest
