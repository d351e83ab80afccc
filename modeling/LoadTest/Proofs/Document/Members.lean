/-
Which members of a record are given, and in which order.

A record that was written with all its members can be given in other ways that
mean the same. Its members may stand in any order, since each of them has a slot
of its own (`RecordReader.Independent`). There may be members with other names
among them, which are passed over. And members that have their standard value
may be left out (`Json.Abridged`), since an empty slot stands for that value.

Order is treated by exchanging neighbours: `readMember_comm` says that two
members which are read one after the other can be read the other way round, and
`readMembers_perm` is the induction over the permutation. Only members that are
read make this true. Which of two faults is met first does depend on the order.
-/
import LoadTest.Proofs.Document.Holds
import Mathlib.Data.List.Nodup

set_option autoImplicit false

namespace LoadTest

/-! ## Members that make up a value -/

namespace Document

variable {α β σ : Type} {r : RecordReader σ α} {es : List (String × Json)} {s : σ} {a : α}

/-- With the members, and what is in the slots before them, the record is the value. -/
def Completes (r : RecordReader σ α) (es : List (String × Json)) (s : σ) (a : α) : Prop :=
  ∃ s', Fills r es s s' ∧ r.finish s' = .ok a

theorem completes_nil (h : r.finish s = .ok a) : Completes r [] s a := ⟨s, fills_nil r s, h⟩

/-- A member fills its slot, and the others complete the record from there. -/
theorem completes_cons {k : String} {j : Json} {i : Nat} (set : β → σ) {b : β}
    {read : Document → Decoded β} (hread : Reads read j b) (hmember : r.members.idxOf? k = some i)
    (hempty : r.isSet i s = false) (hfill : ∀ d, r.fill i d s = (read d).map set)
    (hes : Completes r es (set b) a) : Completes r ((k, j) :: es) s a := by
  obtain ⟨s', hfills, hfinish⟩ := hes
  exact ⟨s', fills_cons set hread hmember hempty hfill hfills, hfinish⟩

/-- An object whose members complete a record is read as that record. -/
theorem Completes.reads (h : Completes r es r.blank a) (form : ArrayForm) :
    Reads (r.read form) (.object es) a := by
  obtain ⟨s', hfills, hfinish⟩ := h
  exact reads_record form hfills hfinish

end Document

/-! ## Members left out -/

namespace Json

/-- Members of which some that have their standard value are left out. What is
left of the others may be abridged as well, in the ways that `part` admits for
the member of that name. -/
inductive Abridged (standard : List (String × Json)) (part : String → Json → Json → Prop) :
    List (String × Json) → List (String × Json) → Prop
  | nil : Abridged standard part [] []
  | keep {k : String} {j j' : Json} {ms ms' : List (String × Json)} (h : part k j j')
      (hs : Abridged standard part ms ms') : Abridged standard part ((k, j) :: ms) ((k, j') :: ms')
  | leave {k : String} {j : Json} {ms ms' : List (String × Json)} (h : standard.lookup k = some j)
      (hs : Abridged standard part ms ms') : Abridged standard part ((k, j) :: ms) ms'

namespace Abridged

variable {standard ms ms' : List (String × Json)} {part : String → Json → Json → Prop}

/-- What is left out may be all that stands behind some member. -/
theorem of_append {given omitted : List (String × Json)}
    (hgiven : ∀ m ∈ given, part m.1 m.2 m.2)
    (homitted : ∀ m ∈ omitted, standard.lookup m.1 = some m.2) :
    Abridged standard part (given ++ omitted) given := by
  induction given with
  | nil =>
    induction omitted with
    | nil => exact .nil
    | cons m omitted ih =>
      rw [List.forall_mem_cons] at homitted
      exact .leave homitted.1 (ih homitted.2)
  | cons m given ih =>
    rw [List.forall_mem_cons] at hgiven
    exact .keep hgiven.1 (ih hgiven.2)

/-- Nothing needs to be left out. -/
theorem refl (hpart : ∀ m ∈ ms, part m.1 m.2 m.2) : Abridged standard part ms ms := by
  have happend : Abridged standard part (ms ++ []) ms := of_append hpart (List.forall_mem_nil _)
  rwa [List.append_nil] at happend

/-- No member gets another name. -/
theorem name_mem (h : Abridged standard part ms ms') {k : String} (hk : k ∈ ms'.map Prod.fst) :
    k ∈ ms.map Prod.fst := by
  induction h with
  | nil => exact hk
  | keep _ _ ih =>
    rw [List.map_cons, List.mem_cons] at hk ⊢
    exact hk.imp_right ih
  | leave _ _ ih => exact List.mem_cons_of_mem _ (ih hk)

/-- What holds of all values still does, if it is not lost where a value is abridged. -/
theorem forall_mem {P : Json → Prop} (hpart : ∀ k j j', part k j j' → P j → P j')
    (h : Abridged standard part ms ms') (hms : ∀ m ∈ ms, P m.2) : ∀ m ∈ ms', P m.2 := by
  induction h with
  | nil => exact hms
  | keep hj _ ih =>
    rw [List.forall_mem_cons] at hms ⊢
    exact ⟨hpart _ _ _ hj hms.1, ih hms.2⟩
  | leave _ _ ih => exact ih (List.forall_mem_cons.mp hms).2

/-- A member without a standard value is there. -/
theorem exists_keep {k : String} {j : Json} (h : Abridged standard part ((k, j) :: ms) ms')
    (hk : standard.lookup k = none) :
    ∃ j' rest, ms' = (k, j') :: rest ∧ part k j j' ∧ Abridged standard part ms rest := by
  cases h with
  | keep hj hs => exact ⟨_, _, rfl, hj, hs⟩
  | leave hstandard =>
    rw [hk] at hstandard
    cases hstandard

/-- A member that may be left out. Its slot is filled, or else it stays empty and the
value is the one that an empty slot stands for. -/
theorem completes {β σ α : Type} {r : RecordReader σ α} {k : String} {j j₀ : Json} {s : σ} {a : α}
    (h : Abridged standard part ((k, j) :: ms) ms') (hstandard : standard.lookup k = some j₀)
    {read : Document → Decoded β} {b default : β} (hdefault : Document.Reads read j₀ default)
    (hj : Document.Reads read j b) (hpart : ∀ j', part k j j' → Document.Reads read j' b)
    (set : Option β → σ) (hnone : set none = s) {i : Nat} (hmember : r.members.idxOf? k = some i)
    (hempty : r.isSet i s = false)
    (hfill : ∀ d, r.fill i d s = (read d).map fun v => set (some v))
    (hrest : ∀ (o : Option β) (rest : List (String × Json)), o.getD default = b →
      Abridged standard part ms rest → Document.Completes r rest (set o) a) :
    Document.Completes r ms' s a := by
  cases h with
  | keep hkeep hs =>
    exact Document.completes_cons (fun v => set (some v)) (hpart _ hkeep) hmember hempty hfill
      (hrest (some b) _ rfl hs)
  | leave hleave hs =>
    -- the value is the standard one, and no value is read in two ways
    rw [hstandard, Option.some_inj] at hleave
    subst hleave hnone
    exact hrest none _ (hdefault.unique hj) hs

end Abridged

/-- An object without some of the members that have their standard value. -/
def AbridgedTo (standard : List (String × Json)) (part : String → Json → Json → Prop)
    (j j' : Json) : Prop :=
  ∃ ms ms', j = .object ms ∧ j' = .object ms' ∧ Abridged standard part ms ms'

/-- The same where the other members stay as they are. -/
abbrev Shortened (standard : List (String × Json)) : Json → Json → Prop :=
  AbridgedTo standard fun _ j j' => j = j'

section Abridged

variable {standard ms : List (String × Json)} {part : String → Json → Json → Prop} {n : Nat}
  {j j' : Json}

theorem AbridgedTo.refl (hpart : ∀ m ∈ ms, part m.1 m.2 m.2) :
    AbridgedTo standard part (.object ms) (.object ms) :=
  ⟨ms, ms, rfl, rfl, .refl hpart⟩

/-- An object takes no more levels if something is left out. -/
theorem AbridgedTo.moderate (h : AbridgedTo standard part j j') (hj : Moderate (n + 1) j)
    (hpart : ∀ k i i', part k i i' → Moderate n i → Moderate n i') : Moderate (n + 1) j' := by
  obtain ⟨ms, ms', rfl, rfl, h⟩ := h
  rw [moderate_object] at hj ⊢
  exact h.forall_mem hpart hj

/-- Leaving members out adds no level and no large integer. -/
theorem Shortened.moderate (h : Shortened standard j j') (hj : Moderate (n + 1) j) :
    Moderate (n + 1) j' := by
  refine AbridgedTo.moderate h hj fun _ i i' heq hi => ?_
  rwa [← heq]

/-- Nor does an array whose elements take no more. -/
theorem moderate_of_forall₂ {R : Json → Json → Prop} {js js' : List Json}
    (h : List.Forall₂ R js js') (hjs : Moderate (n + 1) (.array js))
    (hR : ∀ i i', R i i' → Moderate n i → Moderate n i') : Moderate (n + 1) (.array js') := by
  rw [moderate_array] at hjs ⊢
  induction h with
  | nil => exact hjs
  | cons hj _ ih =>
    rw [List.forall_mem_cons] at hjs ⊢
    exact ⟨hR _ _ hj hjs.1, ih hjs.2⟩

end Abridged

end Json

/-! ## Members in another order -/

namespace RecordReader

variable {σ α : Type}

/-- Every member has a slot of its own: to fill it leaves the other slots as they
are, and does not depend on them. -/
structure Independent (r : RecordReader σ α) : Prop where
  isSet_fill : ∀ {i : Nat} {d : Document} {s s' : σ}, i < r.members.length →
    r.fill i d s = .ok s' → r.isSet i s' = true
  isSet_fill_of_ne : ∀ {i k : Nat} {d : Document} {s s' : σ}, i < r.members.length →
    k < r.members.length → i ≠ k → r.fill i d s = .ok s' → r.isSet k s' = r.isSet k s
  fill_comm : ∀ {i k : Nat} {d e : Document} {s s₁ s₂ : σ}, i < r.members.length →
    k < r.members.length → i ≠ k → r.fill i d s = .ok s₁ → r.fill k e s₁ = .ok s₂ →
      ∃ s₁', r.fill k e s = .ok s₁' ∧ r.fill i d s₁' = .ok s₂

variable {r : RecordReader σ α} {k : String} {d : Document} {s s' : σ}

/-- A member of another name is passed over. -/
theorem readMember_of_idxOf?_eq_none (hk : r.members.idxOf? k = none) :
    r.readMember (.text k) d s = .ok s' ↔ d.pass = .ok () ∧ s' = s := by
  have hindex : r.memberIndex? (.text k) = .ok none := congrArg Except.ok hk
  rw [readMember, hindex]
  change (d.pass >>= fun _ => pure s) = _ ↔ _
  rw [Decoded.bind_eq_ok]
  constructor
  · rintro ⟨⟨⟩, hpass, hs⟩
    exact ⟨hpass, (Except.ok.inj hs).symm⟩
  · rintro ⟨hpass, rfl⟩
    exact ⟨(), hpass, rfl⟩

/-- A member that the record knows is read if its slot is empty. -/
theorem readMember_of_idxOf?_eq_some {i : Nat} (hk : r.members.idxOf? k = some i) :
    r.readMember (.text k) d s = .ok s' ↔ r.isSet i s = false ∧ r.fill i d s = .ok s' := by
  cases hempty : r.isSet i s with
  | false =>
    rw [readMember_of_empty hk hempty]
    exact ⟨fun h => ⟨rfl, h⟩, And.right⟩
  | true =>
    have hindex : r.memberIndex? (.text k) = .ok (some i) := congrArg Except.ok hk
    rw [readMember, hindex]
    change (if r.isSet i s then _ else r.fill i d s) = _ ↔ _
    rw [hempty, if_pos rfl]
    simp [Decoded.misfit]

theorem idxOf?_lt {i : Nat} (h : r.members.idxOf? k = some i) : i < r.members.length := by
  obtain ⟨hlt, -, -⟩ := List.idxOf?_eq_some_iff.mp h
  exact hlt

/-- Two members that are read can be read the other way round. -/
theorem Independent.readMember_comm (hr : r.Independent) {k l : String} {d e : Document}
    {s s₁ s₂ : σ} (h₁ : r.readMember (.text k) d s = .ok s₁)
    (h₂ : r.readMember (.text l) e s₁ = .ok s₂) :
    ∃ s₁', r.readMember (.text l) e s = .ok s₁' ∧ r.readMember (.text k) d s₁' = .ok s₂ := by
  cases hk : r.members.idxOf? k with
  | none =>
    -- what is passed over leaves the slots as they are
    obtain ⟨hpass, rfl⟩ := (readMember_of_idxOf?_eq_none hk).mp h₁
    exact ⟨s₂, h₂, (readMember_of_idxOf?_eq_none hk).mpr ⟨hpass, rfl⟩⟩
  | some i =>
    cases hl : r.members.idxOf? l with
    | none =>
      obtain ⟨hpass, rfl⟩ := (readMember_of_idxOf?_eq_none hl).mp h₂
      exact ⟨s, (readMember_of_idxOf?_eq_none hl).mpr ⟨hpass, rfl⟩, h₁⟩
    | some n =>
      rw [readMember_of_idxOf?_eq_some hk] at h₁
      rw [readMember_of_idxOf?_eq_some hl] at h₂
      have hi := idxOf?_lt hk
      have hn := idxOf?_lt hl
      -- a slot that has been filled is not filled again
      have hne : i ≠ n := by
        rintro rfl
        rw [hr.isSet_fill hi h₁.2] at h₂
        cases h₂.1
      obtain ⟨s₁', hn', hi'⟩ := hr.fill_comm hi hn hne h₁.2 h₂.2
      refine ⟨s₁', (readMember_of_idxOf?_eq_some hl).mpr ⟨?_, hn'⟩,
        (readMember_of_idxOf?_eq_some hk).mpr ⟨?_, hi'⟩⟩
      · rw [← hr.isSet_fill_of_ne hi hn hne h₁.2]
        exact h₂.1
      · rw [hr.isSet_fill_of_ne hn hi hne.symm hn']
        exact h₁.1

/-- Members are read exactly if the first is and, from the slots that it leaves, the
others are. -/
theorem readMembers_cons_eq_ok {k : String} {c : Json.Content}
    {ms : List (String × Json.Content)} :
    r.readMembers (Json.Content.memberDocuments ((k, c) :: ms)) s = .ok s' ↔
      ∃ s₁, r.readMember (.text k) c.document s = .ok s₁
        ∧ r.readMembers (Json.Content.memberDocuments ms) s₁ = .ok s' :=
  Decoded.bind_eq_ok

/-- Members that are read can be read in any order, with the same outcome. -/
theorem Independent.readMembers_perm (hr : r.Independent) {ms ms' : List (String × Json.Content)}
    (hms : ms.Perm ms') {s s' : σ}
    (h : r.readMembers (Json.Content.memberDocuments ms) s = .ok s') :
    r.readMembers (Json.Content.memberDocuments ms') s = .ok s' := by
  induction hms generalizing s with
  | nil => exact h
  | cons m _ ih =>
    obtain ⟨s₁, hm, hs⟩ := readMembers_cons_eq_ok.mp h
    exact readMembers_cons_eq_ok.mpr ⟨s₁, hm, ih hs⟩
  | swap m n ms =>
    -- both are read, and what has been read is the same in either order
    obtain ⟨s₁, hn, hs⟩ := readMembers_cons_eq_ok.mp h
    obtain ⟨s₂, hm, hs⟩ := readMembers_cons_eq_ok.mp hs
    obtain ⟨s₁', hm', hn'⟩ := hr.readMember_comm hn hm
    exact readMembers_cons_eq_ok.mpr ⟨s₁', hm', readMembers_cons_eq_ok.mpr ⟨s₂, hn', hs⟩⟩
  | trans _ _ ih ih' => exact ih' (ih h)

/-- Two stretches of members are read one after the other. -/
theorem readMembers_append (ms ms' : List (Document × Document)) (s : σ) :
    r.readMembers (ms ++ ms') s = r.readMembers ms s >>= r.readMembers ms' := by
  induction ms generalizing s with
  | nil => rfl
  | cons m ms ih =>
    rw [List.cons_append, readMembers, readMembers, bind_assoc]
    exact congrArg _ (funext ih)

/-- Members of other names are passed over, whatever they are. -/
theorem readMembers_foreign {ms : List (String × Json.Content)}
    (h : ∀ m ∈ ms, m.1 ∉ r.members) (s : σ) :
    r.readMembers (Json.Content.memberDocuments ms) s = .ok s := by
  induction ms with
  | nil => rfl
  | cons m ms ih =>
    rw [List.forall_mem_cons] at h
    have hm : r.readMember (.text m.1) m.2.document s = .ok s :=
      (readMember_of_idxOf?_eq_none (List.idxOf?_eq_none_iff.mpr h.1)).mpr
        ⟨m.2.pass_document, rfl⟩
    exact readMembers_cons_eq_ok.mpr ⟨s, hm, ih h.2⟩

/-- Members in any order, with others among them, fill the slots as they do alone. -/
theorem Independent.readMembers_eq_ok_iff (hr : r.Independent)
    {own foreign ms : List (String × Json.Content)} (hforeign : ∀ m ∈ foreign, m.1 ∉ r.members)
    (hms : ms.Perm (own ++ foreign)) {s s' : σ} :
    r.readMembers (Json.Content.memberDocuments ms) s = .ok s'
      ↔ r.readMembers (Json.Content.memberDocuments own) s = .ok s' := by
  -- in order, the members of the record come first and those of other names are passed over
  have hordered : r.readMembers (Json.Content.memberDocuments (own ++ foreign)) s = .ok s'
      ↔ r.readMembers (Json.Content.memberDocuments own) s = .ok s' := by
    rw [Json.Content.memberDocuments_append, readMembers_append, Decoded.bind_eq_ok]
    simp only [readMembers_foreign hforeign, Except.ok.injEq, exists_eq_right]
  exact ⟨fun h => hordered.mp (hr.readMembers_perm hms h),
    fun h => hr.readMembers_perm hms.symm (hordered.mpr h)⟩

/-- A record is read from its members in any order, with other members among them. -/
theorem Independent.read_object (hr : r.Independent) (form : ArrayForm)
    {own : List (String × Json)} {foreign ms : List (String × Json.Content)} {a : α}
    (hown : Document.Completes r own r.blank a)
    (hforeign : ∀ m ∈ foreign, m.1 ∉ r.members)
    (hms : ms.Perm (Json.contentMembers own ++ foreign)) :
    r.read form (Json.Content.object ms).document = .ok a := by
  obtain ⟨s, hfills, hfinish⟩ := hown
  have hread := (hr.readMembers_eq_ok_iff hforeign hms).mpr
    (hfills _ (Document.holdsMembers_content own))
  change (r.readMembers (Json.Content.memberDocuments ms) r.blank >>= r.finish) = _
  rw [hread]
  exact hfinish

/-! ## Members without names -/

/-- The name that follows so many others is the one with that number. -/
theorem idxOf?_of_drop (hnodup : r.members.Nodup) {i : Nat} {rest : List String}
    (h : r.members.drop i = k :: rest) : r.members.idxOf? k = some i := by
  have hget : r.members[i]? = some k := by
    rw [← List.head?_drop, h, List.head?_cons]
  obtain ⟨hi, hget⟩ := List.getElem?_eq_some_iff.mp hget
  refine List.idxOf?_eq_some_iff.mpr ⟨hi, hget, fun n hn heq => ?_⟩
  have hin : n = i := hnodup.getElem_inj_iff.mp (heq.trans hget.symm)
  omega

/-- An array may end early if nothing that is missing is required. -/
theorem readElements_nil (left i : Nat) (hoptional : ∀ n, i ≤ n → r.optional n = true) (s : σ) :
    r.readElements true left i [] s = .ok (s, []) := by
  induction left generalizing i with
  | zero => rfl
  | succ left ih =>
    rw [readElements, hoptional i (Nat.le_refl i)]
    exact ih (i + 1) fun n hn => hoptional n (by omega)

/-- Elements are read as the members in whose places they stand; those behind the
last element may be missing. -/
theorem readElements_of_readMembers (hnodup : r.members.Nodup) {rest : List String}
    {ms : List (String × Json.Content)} {i : Nat}
    (hnames : r.members.drop i = ms.map Prod.fst ++ rest)
    (hoptional : ∀ n, i + ms.length ≤ n → r.optional n = true)
    (h : r.readMembers (Json.Content.memberDocuments ms) s = .ok s') :
    r.readElements true (ms.map Prod.fst ++ rest).length i
      (Json.Content.documents (ms.map Prod.snd)) s = .ok (s', []) := by
  induction ms generalizing i s with
  | nil =>
    obtain rfl := Except.ok.inj h
    exact readElements_nil _ i hoptional s
  | cons m ms ih =>
    obtain ⟨s₁, hm, hms⟩ := readMembers_cons_eq_ok.mp h
    have hfill := ((readMember_of_idxOf?_eq_some (idxOf?_of_drop hnodup hnames)).mp hm).2
    have hdrop : r.members.drop (i + 1) = ms.map Prod.fst ++ rest := by
      rw [← List.tail_drop, hnames]
      rfl
    have hlength : ∀ n, i + 1 + ms.length ≤ n → r.optional n = true := fun n hn =>
      hoptional n (by rw [List.length_cons]; omega)
    change (r.fill i m.2.document s >>= _) = _
    rw [hfill]
    exact ih hdrop hlength hms

/-- A record is read from the array of its members, without those at the end that
have been left out. -/
theorem read_array (hnodup : r.members.Nodup) {form : ArrayForm} (hform : form ≠ .refused)
    {given : List (String × Json)} {rest : List String}
    (hnames : r.members = given.map Prod.fst ++ rest)
    (hoptional : ∀ n, given.length ≤ n → r.optional n = true) {a : α}
    (hgiven : Document.Completes r given r.blank a) :
    r.read form (Json.Content.array (given.map fun m => m.2.content)).document = .ok a := by
  obtain ⟨s, hfills, hfinish⟩ := hgiven
  have hsnd : (Json.contentMembers given).map Prod.snd = given.map fun m => m.2.content := by
    rw [Json.contentMembers_eq_map, List.map_map]
    rfl
  have hlength : (Json.contentMembers given).length = given.length := by
    rw [Json.contentMembers_eq_map, List.length_map]
  -- the members that are given have the names that stand first
  rw [← Json.map_fst_contentMembers] at hnames
  rw [← hlength] at hoptional
  have hread := readElements_of_readMembers (i := 0) hnodup hnames
    (fun n hn => hoptional n (by omega)) (hfills _ (Document.holdsMembers_content given))
  rw [← hnames, hsnd] at hread
  change (if form = .refused then _
    else r.ofElements form (Json.Content.documents (given.map fun m => m.2.content)) true) = _
  rw [if_neg hform, ofElements, hread]
  change (r.finish s >>= fun a => r.finishArray form true [] >>= fun _ => pure a) = _
  rw [hfinish]
  cases form with
  | refused => exact absurd rfl hform
  | exact | lenient | counted => rfl

end RecordReader

/-! ## The tag among the members -/

namespace Document

variable {τ : Type} {tagName : String} {readTag : Document → Decoded τ} {s : String} {t : τ}

/-- Members in front of the others are taken in as they are, if the tag is not
among them. -/
theorem settleTagged_contents {front : List (String × Json.Content)}
    (hfront : tagName ∉ front.map Prod.fst) {ms ms' : List (Document × Document)}
    {tag tag' : Option τ} (hms : settleTagged tagName readTag ms tag = .ok (tag', ms')) :
    settleTagged tagName readTag (Json.Content.memberDocuments front ++ ms) tag
      = .ok (tag', Json.Content.memberDocuments front ++ ms') := by
  induction front with
  | nil => exact hms
  | cons m front ih =>
    rw [List.map_cons, List.mem_cons, not_or] at hfront
    have hname : (m.1 == tagName) = false := beq_eq_false_iff_ne.mpr (Ne.symm hfront.1)
    rw [Json.Content.memberDocuments, List.cons_append]
    change (if m.1 == tagName then _ else _) = _
    rw [hname, if_neg Bool.false_ne_true, m.2.settle_document, ih hfront.2]
    rfl

/-- The tag is found wherever it stands, and what is left of the members is taken
in as the content. -/
theorem readTagged_object (name : String) (htag : readTag (.text s) = .ok t)
    {ms rest : List (String × Json.Content)}
    (hms : ms.Perm ((tagName, Json.Content.text s) :: rest))
    (hrest : tagName ∉ rest.map Prod.fst) :
    ∃ ms', List.Perm ms' rest
      ∧ readTagged name tagName readTag (Json.Content.object ms).document
        = .ok (t, (Json.Content.object ms').document) := by
  obtain ⟨front, back, rfl⟩ := List.append_of_mem (hms.mem_iff.mpr List.mem_cons_self)
  have hperm : (front ++ back).Perm rest := (List.perm_middle.symm.trans hms).cons_inv
  -- no other member has the name of the tag
  have hnames : tagName ∉ (front ++ back).map Prod.fst :=
    fun h => hrest ((hperm.map Prod.fst).mem_iff.mp h)
  rw [List.map_append, List.mem_append, not_or] at hnames
  have hback : settleTagged tagName readTag (Json.Content.memberDocuments back ++ []) (some t)
      = .ok (some t, Json.Content.memberDocuments back ++ []) :=
    settleTagged_contents hnames.2 rfl
  rw [List.append_nil] at hback
  -- the tag is met with no tag met before
  have htagged : settleTagged tagName readTag
      ((.text tagName, .text s) :: Json.Content.memberDocuments back) none
      = .ok (some t, Json.Content.memberDocuments back) := by
    change (if tagName == tagName then _ else _) = _
    rw [beq_self_eq_true, if_pos rfl, Option.isSome_none, if_neg Bool.false_ne_true, htag]
    exact hback
  have hall := settleTagged_contents hnames.1 htagged
  refine ⟨front ++ back, hperm, ?_⟩
  have hdocument : (Json.Content.object (front ++ (tagName, Json.Content.text s) :: back)).document
      = .map (Json.Content.memberDocuments front
        ++ (.text tagName, .text s) :: Json.Content.memberDocuments back) true := by
    rw [Json.Content.document, Json.Content.memberDocuments_append]
    rfl
  rw [hdocument, Json.Content.document, Json.Content.memberDocuments_append]
  change (settleTagged tagName readTag _ none >>= _) = _
  rw [hall]
  rfl

/-- In an array the tag stands first. -/
theorem readTagged_array (name : String) (htag : readTag (.text s) = .ok t)
    (cs : List Json.Content) :
    readTagged name tagName readTag (Json.Content.array (.text s :: cs)).document
      = .ok (t, (Json.Content.array cs).document) := by
  have hitems : settleItems (Json.Content.documents cs) = .ok (Json.Content.documents cs) :=
    Json.Content.settleItems_documents fun c _ => c.settle_document
  change (readTag (.text s) >>= fun t => settleItems (Json.Content.documents cs) >>= _) = _
  rw [htag, hitems]
  rfl

end Document

end LoadTest
