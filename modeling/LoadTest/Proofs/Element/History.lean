/-
Properties after a history of calls.

The calls that set and remove properties leave two things behind: values, and an
order of keys. A value is what the last call that concerns its key has left; that
holds of every store with keys. The order looks further back. A key has its place
since it was set for the first time after its latest removal, and `ArrivesAt` says
which call that was. It is a statement about the history alone, and one more call
changes it in a simple way: a removal takes the arrival of its key away
(`not_arrivesAt_remove`), a call that sets a key is an arrival only if the key has
none (`arrivesAt_set_iff`), and neither matters to other keys
(`arrivesAt_concat_iff`). The keys of the element do the same.

The members of a JSON object are set in this way too, so an object with repeated
keys has the order of their first occurrences.
-/
import LoadTest.Proofs.Document.Members
import LoadTest.Proofs.Element.Writes
import LoadTest.Proofs.History
import Mathlib.Data.List.Induction
import Mathlib.Tactic.IntervalCases

set_option autoImplicit false

namespace LoadTest

/-! ## Calls -/

/-- A call that changes the properties of an element. -/
inductive PropertyCall where
  | set (key : String) (v : PropertyValue)
  | remove (key : String)

namespace PropertyCall

/-- The key of the property. -/
def key : PropertyCall → String
  | set k _ => k
  | remove k => k

/-- The value that the property has behind the call. -/
def value? : PropertyCall → Option PropertyValue
  | set _ v => some v
  | remove _ => none

/-- The answer of an element to a call, and the element behind it. -/
def perform (e : Element) : PropertyCall → Option PropertyValue × Element
  | set k v => e.setProperty k v
  | remove k => e.removeProperty k

end PropertyCall

/-- The properties of elements, as a store. -/
def Element.store : KeyedStore Element PropertyCall String PropertyValue where
  get? := Element.property?
  call := PropertyCall.perform
  key := PropertyCall.key
  leaves := PropertyCall.value?
  call_fst e x := by
    cases x with
    | set k v => exact OrderedMap.insert_fst e.properties k v
    | remove k => exact OrderedMap.erase_fst e.properties k
  get?_call e x k := by
    cases x with
    | set k' v => exact OrderedMap.get?_insert e.properties k' k v
    | remove k' => exact OrderedMap.get?_erase e.properties k' k

namespace PropertyCall

/-- The element behind calls that are made one after another. -/
def run (e : Element) (xs : List PropertyCall) : Element := (Element.store.run e xs).2

/-- The answers to calls that are made one after another. -/
def answers (e : Element) (xs : List PropertyCall) : List (Option PropertyValue) :=
  (Element.store.run e xs).1

theorem run_concat (e : Element) (xs : List PropertyCall) (x : PropertyCall) :
    run e (xs ++ [x]) = (perform (run e xs) x).2 :=
  Element.store.run_concat_snd e xs x

/-- Setting a property that is there leaves the keys as they are, and a new one goes
behind the others. -/
theorem keys_run_set (e : Element) (xs : List PropertyCall) (k : String) (v : PropertyValue) :
    (run e (xs ++ [set k v])).properties.keys
      = if k ∈ (run e xs).properties.keys then (run e xs).properties.keys
        else (run e xs).properties.keys ++ [k] := by
  rw [run_concat]
  exact OrderedMap.keys_insert (run e xs).properties k v

/-- Removing a property leaves the other keys in their order. -/
theorem keys_run_remove (e : Element) (xs : List PropertyCall) (k : String) :
    (run e (xs ++ [remove k])).properties.keys = (run e xs).properties.keys.erase k := by
  rw [run_concat]
  exact OrderedMap.keys_erase (run e xs).properties k

/-- A property has the value that was set last, unless it has been removed since. -/
theorem property?_run_eq_some_iff {e : Element} {k : String} (he : e.property? k = none)
    (xs : List PropertyCall) (v : PropertyValue) :
    (run e xs).property? k = some v
      ↔ ∃ before after, xs = before ++ set k v :: after ∧ ∀ x ∈ after, x.key ≠ k := by
  refine (KeyedStore.get?_run_eq_some_iff (K := Element.store) he v).trans ?_
  constructor
  · rintro ⟨x, ⟨hkey, before, after, hxs, hafter⟩, hvalue⟩
    cases x with
    | set k' v' =>
      cases hkey
      cases hvalue
      exact ⟨before, after, hxs, hafter⟩
    | remove k' => cases hvalue
  · rintro ⟨before, after, hxs, hafter⟩
    exact ⟨set k v, ⟨rfl, before, after, hxs, hafter⟩, rfl⟩

/-! ## Arrivals -/

/-- The call at position `n` has given the key its place: it sets the key, no later
call removes it, and an earlier call that sets it is undone before. -/
structure ArrivesAt (xs : List PropertyCall) (k : String) (n : Nat) : Prop where
  sets : ∃ v, xs[n]? = some (set k v)
  kept : ∀ m, n < m → xs[m]? ≠ some (remove k)
  first : ∀ l v, l < n → xs[l]? = some (set k v) → ∃ m, l < m ∧ m < n ∧ xs[m]? = some (remove k)

variable {xs : List PropertyCall} {k k' : String} {v : PropertyValue} {m n : Nat}

/-- A property arrives within the history. -/
theorem ArrivesAt.lt_length (h : ArrivesAt xs k n) : n < xs.length := by
  obtain ⟨v, hv⟩ := h.sets
  exact (List.getElem?_eq_some_iff.mp hv).1

/-- A key that is set and not removed any more has arrived. -/
theorem exists_arrivesAt (hset : xs[n]? = some (set k v))
    (hkept : ∀ m, n < m → xs[m]? ≠ some (remove k)) : ∃ n, ArrivesAt xs k n := by
  classical
  -- the first such call gives the key its place
  have hexists : ∃ n, (∃ v, xs[n]? = some (set k v)) ∧ ∀ m, n < m → xs[m]? ≠ some (remove k) :=
    ⟨n, ⟨v, hset⟩, hkept⟩
  obtain ⟨hsets, hkept⟩ := Nat.find_spec hexists
  refine ⟨Nat.find hexists, hsets, hkept, fun l w hl hw => ?_⟩
  by_contra hnone
  refine Nat.find_min hexists hl ⟨⟨w, hw⟩, fun m hm hremove => ?_⟩
  rcases Nat.lt_trichotomy m (Nat.find hexists) with hlt | heq | hlt
  · exact hnone ⟨m, hm, hlt, hremove⟩
  · obtain ⟨u, hu⟩ := hsets
    rw [← heq, hremove] at hu
    cases hu
  · exact hkept m hlt hremove

/-- In a history with one more call, a position has what it had, or is the last one. -/
theorem getElem?_concat {x y : PropertyCall} :
    (xs ++ [x])[n]? = some y ↔ xs[n]? = some y ∨ (n = xs.length ∧ x = y) := by
  rcases Nat.lt_trichotomy n xs.length with hlt | rfl | hlt
  · rw [List.getElem?_append_left hlt]
    exact ⟨.inl, fun h => h.resolve_right fun h => hlt.ne h.1⟩
  · rw [List.getElem?_concat_length, List.getElem?_eq_none (Nat.le_refl _), Option.some_inj]
    exact ⟨fun h => .inr ⟨rfl, h⟩, fun h => (h.resolve_left (nomatch ·)).2⟩
  · have hlength : (xs ++ [x]).length ≤ n := by
      rw [List.length_append]
      exact hlt
    rw [List.getElem?_eq_none hlength, List.getElem?_eq_none hlt.le]
    exact ⟨(nomatch ·), fun h => h.resolve_right fun h => hlt.ne' h.1⟩

/-- A call other than the last one stands where it stood without the last one. -/
theorem getElem?_concat_of_ne {x y : PropertyCall} (h : x ≠ y) :
    (xs ++ [x])[n]? = some y ↔ xs[n]? = some y := by
  rw [getElem?_concat, or_iff_left fun hlast => h hlast.2]

/-- The arrivals of other keys are not changed by one more call. -/
theorem arrivesAt_concat_iff {x : PropertyCall} (hx : x.key ≠ k) :
    ArrivesAt (xs ++ [x]) k n ↔ ArrivesAt xs k n := by
  -- no call that sets or removes the key is new
  have hset (l : Nat) (v : PropertyValue) :
      (xs ++ [x])[l]? = some (set k v) ↔ xs[l]? = some (set k v) :=
    getElem?_concat_of_ne fun h => hx (congrArg key h)
  have hremove (m : Nat) : (xs ++ [x])[m]? = some (remove k) ↔ xs[m]? = some (remove k) :=
    getElem?_concat_of_ne fun h => hx (congrArg key h)
  constructor
  · rintro ⟨hsets, hkept, hfirst⟩
    simp only [hset, hremove, ne_eq] at hsets hkept hfirst
    exact ⟨hsets, hkept, hfirst⟩
  · rintro ⟨hsets, hkept, hfirst⟩
    constructor <;> simp only [hset, hremove, ne_eq]
    · exact hsets
    · exact hkept
    · exact hfirst

/-- A key that is removed has no place any more. -/
theorem not_arrivesAt_remove : ¬ ArrivesAt (xs ++ [remove k]) k n := by
  intro h
  obtain ⟨v, hv⟩ := h.sets
  rcases getElem?_concat.mp hv with hv | ⟨-, hv⟩
  · exact h.kept xs.length (List.getElem?_eq_some_iff.mp hv).1 List.getElem?_concat_length
  · cases hv

/-- A call that sets a key is an arrival if the key has none. -/
theorem arrivesAt_set_iff : ArrivesAt (xs ++ [set k v]) k n ↔
    ArrivesAt xs k n ∨ (n = xs.length ∧ ∀ m, ¬ ArrivesAt xs k m) := by
  have hremove (m : Nat) :
      (xs ++ [set k v])[m]? = some (remove k) ↔ xs[m]? = some (remove k) :=
    getElem?_concat_of_ne (nomatch ·)
  constructor
  · -- the arrival is an old call, or it is the new one
    rintro ⟨⟨w, hw⟩, hkept, hfirst⟩
    simp only [hremove, ne_eq] at hkept hfirst
    rcases getElem?_concat.mp hw with hw | ⟨rfl, -⟩
    · exact .inl ⟨⟨w, hw⟩, hkept, fun l u hl hu => hfirst l u hl (getElem?_concat.mpr (.inl hu))⟩
    · refine .inr ⟨rfl, fun m hm => ?_⟩
      -- an arrival would be a call that sets the key and is not undone
      obtain ⟨u, hu⟩ := hm.sets
      obtain ⟨l, hml, -, hl⟩ := hfirst m u hm.lt_length (getElem?_concat.mpr (.inl hu))
      exact hm.kept l hml hl
  · rintro (h | ⟨rfl, hnone⟩)
    · obtain ⟨w, hw⟩ := h.sets
      refine ⟨⟨w, getElem?_concat.mpr (.inl hw)⟩, ?_, ?_⟩ <;> simp only [hremove, ne_eq]
      · exact h.kept
      · intro l u hl hu
        exact h.first l u hl ((getElem?_concat.mp hu).resolve_right fun hlast =>
          (Nat.lt_trans hl h.lt_length).ne hlast.1)
    · refine ⟨⟨v, List.getElem?_concat_length⟩, ?_, ?_⟩ <;> simp only [hremove, ne_eq]
      · intro m hm hremove
        exact absurd (List.getElem?_eq_some_iff.mp hremove).1 hm.not_gt
      · intro l u hl hu
        have hu := (getElem?_concat.mp hu).resolve_right fun hlast => hl.ne hlast.1
        by_contra hundone
        -- if it is not undone, the key has arrived already
        obtain ⟨m, hm⟩ := exists_arrivesAt hu fun m hlm hm =>
          hundone ⟨m, hlm, (List.getElem?_eq_some_iff.mp hm).1, hm⟩
        exact hnone m hm

/-! ## The order of the keys -/

/-- The keys are those that have arrived, in the order of their arrivals. -/
structure InOrderOfArrival (xs : List PropertyCall) (keys : List String) : Prop where
  mem_iff : ∀ k, k ∈ keys ↔ ∃ n, ArrivesAt xs k n
  before : keys.Pairwise fun k l => ∀ m n, ArrivesAt xs k m → ArrivesAt xs l n → m < n

variable {keys : List String}

/-- Keys stay in order of arrival under another history with the same arrivals. -/
theorem InOrderOfArrival.congr {ys : List PropertyCall} (h : InOrderOfArrival xs keys)
    (hys : ∀ k n, ArrivesAt ys k n ↔ ArrivesAt xs k n) : InOrderOfArrival ys keys := by
  constructor
  · simpa only [hys] using h.mem_iff
  · simpa only [hys] using h.before

/-- A key that is set for the first time, or again after it was removed, arrives behind
all others. -/
theorem InOrderOfArrival.set (h : InOrderOfArrival xs keys) (k : String) (v : PropertyValue) :
    InOrderOfArrival (xs ++ [set k v]) (if k ∈ keys then keys else keys ++ [k]) := by
  have hother {l : String} (hl : l ≠ k) (n : Nat) :
      ArrivesAt (xs ++ [PropertyCall.set k v]) l n ↔ ArrivesAt xs l n :=
    arrivesAt_concat_iff hl.symm
  by_cases hk : k ∈ keys
  · -- the key has its place already, so nothing changes
    rw [if_pos hk]
    refine h.congr fun l n => ?_
    by_cases hl : l = k
    · obtain ⟨m, hm⟩ := (h.mem_iff k).mp hk
      rw [hl, arrivesAt_set_iff, or_iff_left fun hnone => hnone.2 m hm]
    · exact hother hl n
  · have hnone (m : Nat) : ¬ ArrivesAt xs k m := fun hm => hk ((h.mem_iff k).mpr ⟨m, hm⟩)
    have hlast (n : Nat) : ArrivesAt (xs ++ [PropertyCall.set k v]) k n ↔ n = xs.length := by
      rw [arrivesAt_set_iff, or_iff_right (hnone n), and_iff_left hnone]
    have hne {l : String} (hl : l ∈ keys) : l ≠ k := fun heq => hk (heq ▸ hl)
    rw [if_neg hk]
    constructor
    · intro l
      rw [List.mem_append, List.mem_singleton]
      by_cases hl : l = k
      · simp only [hl, hlast, exists_eq, or_true]
      · simp only [hother hl, h.mem_iff, hl, or_false]
    · -- all others have arrived before the last call
      rw [List.pairwise_append]
      refine ⟨h.before.imp_of_mem fun ha hb hab => ?_, List.pairwise_singleton _ _, ?_⟩
      · simpa only [hother (hne ha), hother (hne hb)] using hab
      · intro a ha b hb m n hm hn
        rw [List.mem_singleton] at hb
        rw [hother (hne ha)] at hm
        rw [hb, hlast] at hn
        exact hn ▸ hm.lt_length

/-- A removed key leaves the others in order of arrival. -/
theorem InOrderOfArrival.remove (h : InOrderOfArrival xs keys) (hkeys : keys.Nodup) (k : String) :
    InOrderOfArrival (xs ++ [remove k]) (keys.erase k) := by
  have hother {l : String} (hl : l ≠ k) (n : Nat) :
      ArrivesAt (xs ++ [PropertyCall.remove k]) l n ↔ ArrivesAt xs l n :=
    arrivesAt_concat_iff hl.symm
  constructor
  · intro l
    rw [hkeys.mem_erase_iff]
    by_cases hl : l = k
    · rw [hl]
      exact ⟨fun hk => absurd rfl hk.1, fun ⟨n, hn⟩ => absurd hn not_arrivesAt_remove⟩
    · simp only [hother hl, h.mem_iff, ne_eq, hl, not_false_eq_true, true_and]
  · have hne {l : String} (hl : l ∈ keys.erase k) : l ≠ k := (hkeys.mem_erase_iff.mp hl).1
    refine (h.before.sublist List.erase_sublist).imp_of_mem fun ha hb hab => ?_
    simpa only [hother (hne ha), hother (hne hb)] using hab

/-- One call after another, the keys of an element stay in the order of arrival. -/
theorem inOrderOfArrival_run (kind : ElementKind) (xs : List PropertyCall) :
    InOrderOfArrival xs (run (Element.new kind) xs).properties.keys := by
  -- on the last call, since a call is judged by those before it
  induction xs using List.reverseRecOn with
  | nil =>
    refine ⟨fun k => ⟨fun hk => absurd hk List.not_mem_nil, fun ⟨n, hn⟩ => ?_⟩, .nil⟩
    exact absurd hn.lt_length (Nat.not_lt_zero n)
  | append_singleton xs x ih =>
    cases x with
    | set k v =>
      rw [keys_run_set]
      exact ih.set k v
    | remove k =>
      rw [keys_run_remove]
      exact ih.remove (run (Element.new kind) xs).properties.keys_nodup k

/-! ## Members of an object -/

/-- The calls that set properties one after another. -/
def setAll (ws : List (String × PropertyValue)) : List PropertyCall := ws.map fun w => set w.1 w.2

/-- Setting properties one by one is setting them all. -/
theorem run_setAll (e : Element) (ws : List (String × PropertyValue)) :
    run e (setAll ws) = e.withProperties ws := by
  induction ws generalizing e with
  | nil => rfl
  | cons w ws ih => exact ih (e.withProperty w.1 w.2)

end PropertyCall

/-- The names and values that the members of an object are read as. -/
def PropertyMap.HoldEntries (ms : List (String × Json.Content))
    (ws : List (String × PropertyValue)) : Prop :=
  List.Forall₂ (fun m w => m.1 = w.1 ∧ PropertyValue.read m.2.document = .ok w.2) ms ws

/-- Members are read as properties exactly if each holds its property. -/
theorem PropertyMap.readEntries_eq_ok_iff {ms : List (String × Json.Content)}
    {ws : List (String × PropertyValue)} :
    Document.readEntries Document.readText PropertyValue.read (Json.Content.memberDocuments ms)
      = .ok ws ↔ HoldEntries ms ws := by
  induction ms generalizing ws with
  | nil =>
    rw [HoldEntries, List.forall₂_nil_left_iff]
    exact ⟨fun h => (Except.ok.inj h).symm, fun h => congrArg Except.ok h.symm⟩
  | cons m ms ih =>
    obtain ⟨k, c⟩ := m
    change (PropertyValue.read c.document >>= fun v => Document.readEntries Document.readText
      PropertyValue.read (Json.Content.memberDocuments ms)
        >>= fun es => pure ((k, v) :: es)) = _ ↔ _
    simp only [Decoded.bind_eq_ok, ih]
    constructor
    · rintro ⟨v, hv, es, hes, h⟩
      cases h
      exact .cons ⟨rfl, hv⟩ hes
    · intro h
      obtain ⟨⟨k', v⟩, es, ⟨hk, hv⟩, hes, rfl⟩ := List.forall₂_cons_left_iff.mp h
      cases hk
      exact ⟨v, hv, es, hes, rfl⟩

/-- An object is read as properties exactly if its members hold them. The last of
several members with one key decides. -/
theorem PropertyMap.read_eq_ok_iff {ms : List (String × Json.Content)} {m : PropertyMap} :
    PropertyMap.read (Json.Content.object ms).document = .ok m
      ↔ ∃ ws, HoldEntries ms ws ∧ OrderedMap.ofList ws = m := by
  rw [PropertyMap.read, Json.Content.document, Json.readPairs_map, Decoded.map_eq_ok]
  simp only [readEntries_eq_ok_iff]

namespace Element

/-- Each member of an element has a slot of its own. -/
theorem independent : reader.Independent where
  isSet_fill {i d s s'} hi h := by
    change i < 3 at hi
    interval_cases i <;> obtain ⟨v, -, rfl⟩ := Decoded.map_eq_ok.mp h <;> rfl
  isSet_fill_of_ne {i k d s s'} hi hk hne h := by
    change i < 3 at hi
    change k < 3 at hk
    interval_cases i <;> obtain ⟨v, -, rfl⟩ := Decoded.map_eq_ok.mp h <;> interval_cases k <;>
      first | rfl | exact absurd rfl hne
  fill_comm {i k d e s s₁ s₂} hi hk hne h₁ h₂ := by
    change i < 3 at hi
    change k < 3 at hk
    interval_cases i <;> obtain ⟨v, hv, rfl⟩ := Decoded.map_eq_ok.mp h₁ <;> interval_cases k <;>
      obtain ⟨w, hw, rfl⟩ := Decoded.map_eq_ok.mp h₂ <;>
      first
        | exact absurd rfl hne
        | exact ⟨_, Decoded.map_eq_ok.mpr ⟨w, hw, rfl⟩, Decoded.map_eq_ok.mpr ⟨v, hv, rfl⟩⟩

/-- The members of an element with the given properties. -/
def givenMembers (kind : ElementKind) (name : String) (ms : List (String × Json.Content)) :
    List (String × Json.Content) :=
  [("kind", .text kind.identifier), ("name", .text name), ("properties", .object ms)]

/-- The text is an object that gives an element a kind, a name and properties, in any
order and with members of other names among them. -/
def Gives (s : String) (kind : ElementKind) (name : String)
    (ms : List (String × Json.Content)) : Prop :=
  ∃ foreign all, Json.Denotes s (.object all) ∧ (∀ m ∈ foreign, m.1 ∉ reader.members)
    ∧ all.Perm (givenMembers kind name ms ++ foreign)

/-- The three members of an element fill their slots, if the properties can be read. -/
theorem readMembers_given (kind : ElementKind) (name : String)
    (ms : List (String × Json.Content)) :
    reader.readMembers (Json.Content.memberDocuments (givenMembers kind name ms)) reader.blank
      = (PropertyMap.read (Json.Content.object ms).document).map
          fun m => ⟨some kind, some name, some m⟩ := by
  have hkind : ElementKind.read (.text kind.identifier) = .ok kind := by
    change Document.variantNamed _ ElementKind.ofIdentifier? kind.identifier = _
    rw [Document.variantNamed, ElementKind.ofIdentifier?_identifier]
  change (reader.readMember (.text "kind") (.text kind.identifier) reader.blank >>= _) = _
  rw [RecordReader.readMember_of_empty (i := 0) rfl rfl]
  change ((ElementKind.read (.text kind.identifier)).map _ >>= _) = _
  rw [hkind]
  change (reader.readMember (.text "properties") (Json.Content.object ms).document
    ⟨some kind, some name, none⟩ >>= pure) = _
  rw [bind_pure, RecordReader.readMember_of_empty (i := 2) rfl rfl]
  rfl

/-- What a text gives is read, as soon as the properties are. -/
theorem decode_eq_ok_iff {s name : String} {kind : ElementKind}
    {ms : List (String × Json.Content)} (h : Gives s kind name ms) {e : Element} :
    Json.decode (read .exact) s = .ok e
      ↔ ∃ m, PropertyMap.read (Json.Content.object ms).document = .ok m ∧ e = ⟨kind, name, m⟩ := by
  obtain ⟨foreign, all, hs, hforeign, hall⟩ := h
  rw [hs.decode]
  change (reader.readMembers (Json.Content.memberDocuments all) reader.blank
    >>= reader.finish) = _ ↔ _
  simp only [Decoded.bind_eq_ok, independent.readMembers_eq_ok_iff hforeign hall,
    readMembers_given, Decoded.map_eq_ok]
  constructor
  · rintro ⟨-, ⟨m, hm, rfl⟩, hfinish⟩
    exact ⟨m, hm, (Except.ok.inj hfinish).symm⟩
  · rintro ⟨m, hm, rfl⟩
    exact ⟨_, ⟨m, hm, rfl⟩, rfl⟩

end Element

namespace PropertyCall

/-- An element with properties is an empty one in which they have been set one by one. -/
theorem run_setAll_new (kind : ElementKind) (name : String)
    (ws : List (String × PropertyValue)) :
    (run (Element.new kind) (setAll ws)).withName name = ⟨kind, name, OrderedMap.ofList ws⟩ := by
  rw [run_setAll]
  rfl

/-- Whatever properties are set on a new element and removed from it: no key stands
twice, a key has the value that was set last unless it has been removed since, every
call answers with the value from before, and the keys stand in the order of their
arrivals. So a key that is there stays where it is, and one that is set again after
its removal comes last. The members of an object are set in this way in the order of
the text, whether their names are different or not. -/
theorem properties_after_calls (kind : ElementKind) (xs : List PropertyCall) :
    (run (Element.new kind) xs).properties.keys.Nodup
    ∧ (∀ k v, (run (Element.new kind) xs).property? k = some v ↔
        ∃ before after, xs = before ++ set k v :: after ∧ ∀ x ∈ after, x.key ≠ k)
    ∧ (∀ n : Nat, (answers (Element.new kind) xs)[n]?
        = xs[n]?.map fun x => (run (Element.new kind) (xs.take n)).property? x.key)
    ∧ InOrderOfArrival xs (run (Element.new kind) xs).properties.keys
    ∧ (∀ k v, (run (Element.new kind) (xs ++ [set k v])).properties.keys
        = if k ∈ (run (Element.new kind) xs).properties.keys
          then (run (Element.new kind) xs).properties.keys
          else (run (Element.new kind) xs).properties.keys ++ [k])
    ∧ (∀ k v, (run (Element.new kind) (xs ++ [remove k, set k v])).properties.keys
        = (run (Element.new kind) xs).properties.keys.erase k ++ [k])
    ∧ ∀ (s name : String) (ms : List (String × Json.Content)), Element.Gives s kind name ms →
        ∀ e, Json.decode (Element.read .exact) s = .ok e
          ↔ ∃ ws, PropertyMap.HoldEntries ms ws
            ∧ e = (run (Element.new kind) (setAll ws)).withName name := by
  refine ⟨(run (Element.new kind) xs).properties.keys_nodup,
    fun k => property?_run_eq_some_iff rfl xs, Element.store.answer_run _ xs,
    inOrderOfArrival_run kind xs, keys_run_set _ xs, fun k v => ?_, fun s name ms hs e => ?_⟩
  · have hgone : k ∉ (run (Element.new kind) xs).properties.keys.erase k :=
      (run (Element.new kind) xs).properties.keys_nodup.not_mem_erase
    rw [List.append_cons, keys_run_set, keys_run_remove, if_neg hgone]
  · rw [Element.decode_eq_ok_iff hs]
    simp only [PropertyMap.read_eq_ok_iff, run_setAll_new]
    constructor
    · rintro ⟨-, ⟨ws, hws, rfl⟩, rfl⟩
      exact ⟨ws, hws, rfl⟩
    · rintro ⟨ws, hws, rfl⟩
      exact ⟨_, ⟨ws, hws, rfl⟩, rfl⟩

/-- A key that is repeated in a text keeps its place and takes the last value. -/
theorem repeated_key_is_set_again :
    Json.decode (Element.read .exact)
      ("\x7b\"properties\": \x7b\"b\": 1, \"a\": \"x\", \"b\": true\x7d, "
        ++ "\"name\": \"N\", \"kind\": \"test_plan\"\x7d")
      = .ok ⟨.testPlan, "N", ⟨[("b", .bool true), ("a", .text "x")], by decide⟩⟩ := by
  obtain ⟨-, -, -, -, -, -, hdecode⟩ := properties_after_calls .testPlan []
  let ms : List (String × Json.Content) := [("b", .integer 1), ("a", .text "x"), ("b", .bool true)]
  let ws : List (String × PropertyValue) := [("b", .integer 1), ("a", .text "x"), ("b", .bool true)]
  have hws : PropertyMap.HoldEntries ms ws :=
    .cons ⟨rfl, rfl⟩ (.cons ⟨rfl, rfl⟩ (.cons ⟨rfl, rfl⟩ .nil))
  refine (hdecode _ "N" ms ?_ _).mpr ⟨ws, hws, rfl⟩
  exact ⟨[], (Element.givenMembers .testPlan "N" ms).reverse, rfl, List.forall_mem_nil _,
    List.reverse_perm _⟩

end PropertyCall

end LoadTest
