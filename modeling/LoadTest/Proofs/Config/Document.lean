/-
Configurations of which parts are left out.

Every setting of a configuration has a standard value, and so have the settings
of a thread group and those of a filter. A configuration is read back from what
it is written as, and also if some members that have their standard value are
left out, at the top or in a thread group or filter
(`PlanConfig.reads_every_abridgement`). The standard values are listed here as
they are documented; that they are the ones that the readers fall back on is part
of what is proved.

Default properties are written as any others, so a table without rows would be
read back as a list. Configurations with such a table are left out.
-/
import LoadTest.Config.Text
import LoadTest.Proofs.Document.Members
import LoadTest.Proofs.Element.Defaults
import LoadTest.Proofs.Element.Shapes
import LoadTest.Proofs.Workload.Layout

set_option autoImplicit false

namespace LoadTest

open Document

/-! ## What may be left out -/

/-- The documented settings of a thread group. -/
def ThreadGroup.standardMembers : List (String × Json) :=
  [("name", .text "Thread Group"), ("num_threads", .integer 1), ("ramp_up_secs", .integer 1),
    ("loops", .integer 1)]

/-- The documented settings of filters. The kind has none. -/
def FilterSpec.standardMembers : List (String × Json) :=
  [("headers", .object []), ("default", .null), ("filename", .null)]

/-- The documented settings of a configuration. -/
def PlanConfig.standardMembers : List (String × Json) :=
  [("test_plan_name", .null), ("thread_group", .object ThreadGroup.standardMembers),
    ("cookie_manager", .bool true), ("element_defaults", .object []), ("filters", .array [])]

/-- The members of a thread group, without some that have their standard value. -/
abbrev ThreadGroup.Abridged (g : ThreadGroup) (j : Json) : Prop :=
  Json.Shortened standardMembers g.toJson j

/-- The members of a filter, without some that have their standard value. -/
abbrev FilterSpec.Abridged (f : FilterSpec) (j : Json) : Prop :=
  Json.Shortened standardMembers f.toJson j

/-- What may become of the value of a member of a configuration: thread groups and
filters may be abridged, all other values stay. -/
def PlanConfig.part : String → Json → Json → Prop
  | "thread_group" => Json.Shortened ThreadGroup.standardMembers
  | "filters" => fun j j' => ∃ js js', j = .array js ∧ j' = .array js'
      ∧ List.Forall₂ (Json.Shortened FilterSpec.standardMembers) js js'
  | _ => fun j j' => j = j'

/-- The members of a configuration, without some that have their standard value, at
the top or in a thread group or filter. -/
abbrev PlanConfig.Abridged (c : PlanConfig) (j : Json) : Prop :=
  Json.AbridgedTo standardMembers part c.toJson j

/-! ## Levels -/

/-- A thread group is an object of a text and numbers. -/
theorem ThreadGroup.moderate_toJson (g : ThreadGroup) : g.toJson.Moderate 1 := by
  refine Json.moderate_object.mpr ?_
  simp only [List.forall_mem_cons]
  exact ⟨⟨trivial, Nat.le_refl 0⟩, ⟨Json.fitsWord_uint32 g.threads, Nat.le_refl 0⟩,
    ⟨Json.fitsWord_uint32 g.rampUp, Nat.le_refl 0⟩, ⟨Json.fitsWord_int32 g.loops, Nat.le_refl 0⟩,
    List.forall_mem_nil _⟩

/-- A pause is an object of numbers. -/
theorem ThinkTime.moderate_toJson (t : ThinkTime) : t.toJson.Moderate 1 := by
  refine Json.moderate_object.mpr ?_
  simp only [List.forall_mem_cons]
  exact ⟨⟨Json.fitsWord_uint64 t.mean, Nat.le_refl 0⟩,
    ⟨Json.fitsWord_uint64 t.deviation, Nat.le_refl 0⟩, List.forall_mem_nil _⟩

/-- A filter may have an object among its members, and nothing deeper. -/
theorem FilterSpec.moderate_toJson (f : FilterSpec) : f.toJson.Moderate 2 := by
  refine Json.moderate_object.mpr (List.forall_mem_cons.mpr ⟨⟨trivial, Nat.zero_le 1⟩, ?_⟩)
  cases f with
  | identity => exact List.forall_mem_nil _
  | headerDefaults headers =>
    refine List.forall_mem_singleton.mpr (Json.moderate_object.mpr ?_)
    exact List.forall_mem_map.mpr fun _ _ => ⟨trivial, Nat.le_refl 0⟩
  | thinkTime fallback =>
    refine List.forall_mem_singleton.mpr ?_
    cases fallback with
    | none => exact ⟨trivial, Nat.zero_le 1⟩
    | some t => exact t.moderate_toJson
  | resultCollector filename =>
    refine List.forall_mem_singleton.mpr ?_
    cases filename with
    | none => exact ⟨trivial, Nat.zero_le 1⟩
    | some s => exact ⟨trivial, Nat.zero_le 1⟩

/-- Defaults are kept by kind and by key, and a table takes two levels more. -/
theorem ElementDefaults.moderate_toJson (d : ElementDefaults) : d.toJson.Moderate 4 := by
  refine Json.moderate_object.mpr (List.forall_mem_map.mpr fun e _ => ?_)
  refine Json.moderate_object.mpr (List.forall_mem_map.mpr fun p _ => ?_)
  exact p.2.moderate_toJson

/-- The rows of a table among the default properties stand deepest. -/
theorem PlanConfig.moderate_toJson (c : PlanConfig) : c.toJson.Moderate 5 := by
  have hname : (Json.ofOption Json.text c.planName).Moderate 4 := by
    cases c.planName with
    | none => exact ⟨trivial, Nat.zero_le 4⟩
    | some s => exact ⟨trivial, Nat.zero_le 4⟩
  have hfilters : (Json.array (c.filters.map FilterSpec.toJson)).Moderate 4 :=
    Json.moderate_array.mpr (List.forall_mem_map.mpr fun f _ =>
      f.moderate_toJson.mono (by decide))
  refine Json.moderate_object.mpr ?_
  simp only [List.forall_mem_cons]
  exact ⟨hname, c.threadGroup.moderate_toJson.mono (by decide), ⟨trivial, Nat.zero_le 4⟩,
    c.defaults.moderate_toJson, hfilters, List.forall_mem_nil _⟩

/-- Leaving members of a filter out adds no level. -/
theorem FilterSpec.moderate_of_abridged {f : FilterSpec} {j : Json} (hj : f.Abridged j) :
    j.Moderate 2 :=
  Json.Shortened.moderate hj f.moderate_toJson

/-! ## Thread groups -/

/-- A thread group is read back with any of its members left out that have their default
values. -/
theorem ThreadGroup.reads_abridged {g : ThreadGroup} {j : Json} (form : ArrayForm)
    (hj : g.Abridged j) : Reads (ThreadGroup.read form) j g := by
  obtain ⟨ms, ms', hms, rfl, h⟩ := hj
  obtain rfl := Json.object.inj hms
  obtain ⟨name, threads, rampUp, loops⟩ := g
  have hname := reads_readText name
  have hthreads := reads_readUInt32 threads
  have hrampUp := reads_readUInt32 rampUp
  have hloops := reads_readInt32 loops
  refine Completes.reads ?_ form
  refine h.completes rfl (reads_readText standard.name) hname (fun _ h => h ▸ hname)
    (fun o => ⟨o, none, none, none⟩) rfl rfl rfl (fun _ => rfl) fun n ms hn h => ?_
  refine h.completes rfl (reads_readUInt32 standard.threads) hthreads (fun _ h => h ▸ hthreads)
    (fun o => ⟨n, o, none, none⟩) rfl rfl rfl (fun _ => rfl) fun t ms ht h => ?_
  refine h.completes rfl (reads_readUInt32 standard.rampUp) hrampUp (fun _ h => h ▸ hrampUp)
    (fun o => ⟨n, t, o, none⟩) rfl rfl rfl (fun _ => rfl) fun u ms hu h => ?_
  refine h.completes rfl (reads_readInt32 standard.loops) hloops (fun _ h => h ▸ hloops)
    (fun o => ⟨n, t, u, o⟩) rfl rfl rfl (fun _ => rfl) fun l ms hl h => ?_
  cases h
  refine completes_nil ?_
  change Except.ok (ThreadGroup.mk (n.getD standard.name) (t.getD standard.threads)
    (u.getD standard.rampUp) (l.getD standard.loops)) = _
  rw [hn, ht, hu, hl]

/-! ## Filters -/

/-- The identifier of a kind is the tag of that kind. -/
theorem FilterKind.readTag_identifier (k : FilterKind) : readTag (.text k.identifier) = .ok k := by
  cases k with
  | identity | headerDefaults | thinkTime | resultCollector => rfl

/-- A record with one member is read from this member, and without it if it has its
standard value. -/
theorem reads_single {α : Type} {standard ms : List (String × Json)} {member : String}
    {j j₀ : Json} (h : Json.Abridged standard (fun _ i i' => i = i') [(member, j)] ms)
    {read : Document → Decoded α} {a default : α} (hstandard : standard.lookup member = some j₀)
    (hdefault : Reads read j₀ default) (hj : Reads read j a) (name : String) (form : ArrayForm) :
    Reads ((singleReader name member default read).read form) (.object ms) a := by
  have hmember : [member].idxOf? member = some 0 := by
    rw [List.idxOf?_cons, beq_self_eq_true, if_pos rfl]
  refine Completes.reads ?_ form
  refine h.completes hstandard hdefault hj (fun _ h => h ▸ hj) (fun o => o) rfl hmember rfl
    (fun _ => rfl) fun o ms ho h => ?_
  cases h
  exact completes_nil (congrArg Except.ok ho)

/-- A map is read with its entries in order, since no key stands twice. -/
theorem reads_orderedMap {β : Type} {read : Document → Decoded β} {write : β → Json}
    (m : OrderedMap String β) (h : ∀ e ∈ m.entries, Reads read (write e.2) e.2) :
    Reads (fun d => (d.readPairs readText read).map OrderedMap.ofList)
      (.object (m.entries.map fun e => (e.1, write e.2))) m := by
  have hkey : ∀ k : String, readText (.text k) = .ok k := fun _ => rfl
  have hread := (reads_readPairs hkey h).map OrderedMap.ofList
  rwa [OrderedMap.ofList_entries] at hread

/-- A text that may be absent is read from what it is written as. -/
theorem reads_ofOption_text (o : Option String) :
    Reads (readOption readText) (Json.ofOption Json.text o) o := by
  cases o with
  | none => exact reads_readOption_null
  | some s =>
    intro d hd
    cases hd with
    | text => rfl
    | plain h => cases h

namespace FilterSpec

/-- Headers are read back in their order. -/
theorem reads_headers (headers : Filter.Headers) :
    Reads readHeaders (.object (headers.entries.map fun e => (e.1, Json.text e.2))) headers :=
  reads_orderedMap headers fun e _ => reads_readText e.2

/-- The members behind the kind are read, without those that have their standard value. -/
theorem reads_content {f : FilterSpec} {ms : List (String × Json)}
    (h : Json.Abridged standardMembers (fun _ i i' => i = i') f.contentMembers ms) :
    Reads (readContent · f.kind) (.object ms) f := by
  cases f with
  | identity =>
    cases h
    intro d hd
    cases hd with
    | map => rfl
    | plain h => cases h
  | headerDefaults headers =>
    exact (reads_single h rfl (reads_headers .empty) (reads_headers headers) _ _).map headerDefaults
  | thinkTime fallback =>
    exact (reads_single h rfl reads_readOption_null (ThinkTime.reads_ofOption _ fallback) _ _).map
      thinkTime
  | resultCollector filename =>
    exact (reads_single h rfl reads_readOption_null (reads_ofOption_text filename) _ _).map
      resultCollector

/-- No member of a filter has the name of the tag. -/
theorem tagName_not_mem (f : FilterSpec) : tagName ∉ f.contentMembers.map Prod.fst := by
  cases f with
  | identity | headerDefaults | thinkTime | resultCollector => simp [contentMembers, tagName]

/-- A filter is read back with any of its members left out that have their default
values. -/
theorem reads_abridged {f : FilterSpec} {j : Json} (hj : f.Abridged j) : Reads read j f := by
  have hfit := (moderate_of_abridged hj).1
  obtain ⟨ms, ms', hms, rfl, h⟩ := hj
  obtain rfl := Json.object.inj hms
  -- the kind has no standard value
  obtain ⟨_, own, rfl, rfl, hown⟩ := h.exists_keep rfl
  have hkeys : tagName ∉ own.map Prod.fst := fun hmem => f.tagName_not_mem (hown.name_mem hmem)
  have hfits : ∀ e ∈ own, e.2.AllFit := fun e he =>
    (Json.every_object.mp hfit e (List.mem_cons_of_mem _ he)).2
  exact Reads.tagged f.kind.readTag_identifier hkeys hfits (reads_content hown)

end FilterSpec

/-! ## Default properties -/

/-- No default property is a table without rows. -/
def ElementDefaults.HasNoEmptyTable (d : ElementDefaults) : Prop :=
  ∀ kind key, (d.propertiesOf kind).get? key ≠ some (.table [])

/-- Properties are read back in their order, if none of them is an empty table. -/
theorem PropertyMap.reads {m : PropertyMap} (hm : ∀ key, m.get? key ≠ some (.table [])) :
    Reads PropertyMap.read (PropertyMap.toJson m) m := by
  refine reads_orderedMap m fun e he => ?_
  have hvalue : e.2 ≠ .table [] := by
    intro htable
    refine hm e.1 ?_
    rw [OrderedMap.get?_eq_some_iff, ← htable]
    exact he
  have hread := e.2.reads
  rwa [(PropertyValue.normal_eq_self_iff e.2).mpr hvalue] at hread

namespace ElementDefaults

/-- Maps that are put in one after another replace those that have been there. -/
theorem forKind_foldl_putKind {d : ElementDefaults} {es : List (ElementKind × PropertyMap)}
    (h : ∀ e ∈ es, d.forKind e.1 = some e.2) (start : ElementDefaults) (kind : ElementKind) :
    (es.foldl (fun d e => d.putKind e.1 e.2) start).forKind kind
      = if kind ∈ es.map Prod.fst then d.forKind kind else start.forKind kind := by
  induction es generalizing start with
  | nil => rfl
  | cons e es ih =>
    rw [List.forall_mem_cons] at h
    rw [List.foldl_cons, ih h.2, List.map_cons]
    by_cases hes : kind ∈ es.map Prod.fst
    · rw [if_pos hes, if_pos (List.mem_cons_of_mem _ hes)]
    · rw [if_neg hes]
      -- no later map takes the place of this one
      by_cases hkind : kind = e.1
      · subst hkind
        rw [if_pos List.mem_cons_self, h.1]
        exact if_pos rfl
      · have hcons : kind ∉ e.1 :: es.map Prod.fst := by
          rw [List.mem_cons, not_or]
          exact ⟨hkind, hes⟩
        rw [if_neg hcons]
        exact if_neg hkind

/-- Defaults are what their own list builds. -/
theorem foldl_putKind_toList (d : ElementDefaults) :
    d.toList.foldl (fun d e => d.putKind e.1 e.2) empty = d := by
  refine congrArg mk (funext fun kind => ?_)
  refine (forKind_foldl_putKind (fun e he => mem_toList.mp he) empty kind).trans ?_
  split
  · rfl
  · next hkind =>
    cases hd : d.forKind kind with
    | none => rfl
    | some m =>
      have hmem : (kind, m) ∈ d.toList := mem_toList.mpr hd
      exact absurd (List.mem_map_of_mem hmem) hkind

/-- The identifier of a kind of elements is read as that kind. -/
theorem readKey_identifier (k : ElementKind) :
    ElementKind.readKey (.text k.identifier) = .ok k := by
  change variantNamed ElementKind.identifiers ElementKind.ofIdentifier? k.identifier = _
  rw [variantNamed, ElementKind.ofIdentifier?_identifier]

/-- Defaults are read back, if no table among them is empty. -/
theorem reads {d : ElementDefaults} (hd : d.HasNoEmptyTable) : Reads read d.toJson d := by
  have hpairs : Reads (readPairs ElementKind.readKey PropertyMap.read) d.toJson d.toList := by
    refine reads_readPairs readKey_identifier fun e he => PropertyMap.reads fun key => ?_
    have hkind := hd e.1 key
    rwa [propertiesOf, mem_toList.mp he] at hkind
  have hread := hpairs.map fun es => es.foldl (fun d e => d.putKind e.1 e.2) empty
  rwa [foldl_putKind_toList] at hread

end ElementDefaults

/-! ## Whole configurations -/

namespace PlanConfig

/-- Leaving members out adds no level, neither in the settings nor in their parts. -/
theorem moderate_of_abridged {c : PlanConfig} {j : Json} (hj : c.Abridged j) : j.Moderate 5 := by
  refine hj.moderate c.moderate_toJson fun k i i' hpart hi => ?_
  unfold part at hpart
  split at hpart
  · exact Json.Shortened.moderate hpart hi
  · obtain ⟨js, js', rfl, rfl, h⟩ := hpart
    exact Json.moderate_of_forall₂ h hi fun _ _ => Json.Shortened.moderate
  · rwa [← hpart]

/-- A list of filters is among its own abridgements. -/
theorem part_filters_self (fs : List FilterSpec) :
    part "filters" (.array (fs.map FilterSpec.toJson)) (.array (fs.map FilterSpec.toJson)) := by
  refine ⟨_, _, rfl, rfl, List.forall₂_same.mpr (List.forall_mem_map.mpr fun f _ => ?_)⟩
  exact .refl fun _ _ => rfl

/-- What is written is the configuration with nothing left out. -/
theorem abridged_toJson (c : PlanConfig) : c.Abridged c.toJson := by
  refine .refl ?_
  simp only [List.forall_mem_cons]
  exact ⟨rfl, .refl fun _ _ => rfl, rfl, rfl, part_filters_self c.filters, List.forall_mem_nil _⟩

/-- Filters are read in order, each without some of its members. -/
theorem reads_filters {fs : List FilterSpec} {j : Json}
    (h : part "filters" (.array (fs.map FilterSpec.toJson)) j) :
    Reads (readList FilterSpec.read) j fs := by
  obtain ⟨js, js', hjs, rfl, h⟩ := h
  obtain rfl := Json.array.inj hjs
  rw [List.forall₂_map_left_iff] at h
  have hread := h.imp fun f j hj => FilterSpec.reads_abridged (f := f) (j := j) hj
  exact reads_readItems hread.flip

/-- Settings are read back with any of their members left out that have their default
values, and any of those of the group and of the filters. -/
theorem reads_abridged {c : PlanConfig} (hc : c.defaults.HasNoEmptyTable) {j : Json}
    (form : ArrayForm) (hj : c.Abridged j) : Reads (read form) j c := by
  obtain ⟨ms, ms', hms, rfl, h⟩ := hj
  obtain rfl := Json.object.inj hms
  obtain ⟨planName, threadGroup, cookieManager, defaults, filters⟩ := c
  -- what the members are read as with nothing left out of them
  have hname := reads_ofOption_text planName
  have hgroup : Reads (ThreadGroup.read form) threadGroup.toJson threadGroup :=
    ThreadGroup.reads_abridged form (.refl fun _ _ => rfl)
  have hstandard : Reads (ThreadGroup.read form) (.object ThreadGroup.standardMembers) .standard :=
    ThreadGroup.reads_abridged form (.refl fun _ _ => rfl)
  have hmanager := reads_readBool cookieManager
  have hdefaults := ElementDefaults.reads hc
  have hempty : Reads ElementDefaults.read (.object []) .empty :=
    ElementDefaults.reads (d := .empty) fun _ _ h => nomatch h
  have hfilters := reads_filters (part_filters_self filters)
  refine Completes.reads ?_ form
  refine h.completes rfl reads_readOption_null hname (fun _ h => h ▸ hname)
    (fun o => ⟨o, none, none, none, none⟩) rfl rfl rfl (fun _ => rfl) fun n ms hn h => ?_
  refine h.completes rfl hstandard hgroup (fun _ h => ThreadGroup.reads_abridged form h)
    (fun o => ⟨n, o, none, none, none⟩) rfl rfl rfl (fun _ => rfl) fun g ms hg h => ?_
  refine h.completes rfl (reads_readBool true) hmanager (fun _ h => h ▸ hmanager)
    (fun o => ⟨n, g, o, none, none⟩) rfl rfl rfl (fun _ => rfl) fun m ms hm h => ?_
  refine h.completes rfl hempty hdefaults (fun _ h => h ▸ hdefaults)
    (fun o => ⟨n, g, m, o, none⟩) rfl rfl rfl (fun _ => rfl) fun d ms hd h => ?_
  refine h.completes rfl (reads_readItems .nil) hfilters (fun _ => reads_filters)
    (fun o => ⟨n, g, m, d, o⟩) rfl rfl rfl (fun _ => rfl) fun f ms hf h => ?_
  cases h
  refine completes_nil ?_
  change Except.ok (PlanConfig.mk (n.getD none) (g.getD .standard) (m.getD true)
    (d.getD .empty) (f.getD [])) = _
  rw [hn, hg, hm, hd, hf]

/-- A configuration whose default properties have no table without rows is read back
from every text of what it is written as, also if members that have their standard
value are left out. -/
theorem reads_every_abridgement (c : PlanConfig) (hc : c.defaults.HasNoEmptyTable) :
    c.Abridged c.toJson
    ∧ ∀ j, c.Abridged j →
      parse .json j.print = .ok c ∧ ∀ s, Json.Denotes s j.content → parse .json s = .ok c := by
  refine ⟨c.abridged_toJson, fun j hj => ?_⟩
  have hread := reads_abridged hc .exact hj
  have htext : ∀ s, Json.Denotes s j.content → parse .json s = .ok c := by
    intro s hs
    change Json.decode (read .exact) s = _
    rw [hs.decode]
    exact hread _ (holds_content j)
  have hj := moderate_of_abridged hj
  have hdenotes := denotes_print hj.1 (Nat.le_trans hj.2 (by decide : 5 ≤ Json.maxDepth))
  exact ⟨htext _ hdenotes, htext⟩

/-- A configuration given by part of its thread group and by a filter without its headers. -/
theorem reads_users_and_filter :
    parse .json "\x7b\"thread_group\": \x7b\"num_threads\": 5\x7d,
      \"filters\": [\x7b\"kind\": \"header_defaults\"\x7d]\x7d"
      = .ok ⟨none, ⟨"Thread Group", 5, 1, 1⟩, true, .empty, [.headerDefaults .empty]⟩ := by
  let c : PlanConfig := ⟨none, ⟨"Thread Group", 5, 1, 1⟩, true, .empty, [.headerDefaults .empty]⟩
  let group : Json := .object [("num_threads", .integer 5)]
  let filter : Json := .object [("kind", .text "header_defaults")]
  let given : Json := .object [("thread_group", group), ("filters", .array [filter])]
  have hgroup : c.threadGroup.Abridged group :=
    ⟨_, _, rfl, rfl, .leave rfl (.keep rfl (.leave rfl (.leave rfl .nil)))⟩
  have hfilter : (FilterSpec.headerDefaults .empty).Abridged filter :=
    ⟨_, _, rfl, rfl, .keep rfl (.leave rfl .nil)⟩
  have hgiven : c.Abridged given := by
    refine ⟨_, _, rfl, rfl, .leave rfl (.keep hgroup (.leave rfl (.leave rfl (.keep ?_ .nil))))⟩
    exact ⟨_, _, rfl, rfl, .cons hfilter .nil⟩
  have hdefaults : c.defaults.HasNoEmptyTable := fun _ _ h => nomatch h
  exact ((reads_every_abridgement c hdefaults).2 given hgiven).2 _ rfl

end PlanConfig

end LoadTest
