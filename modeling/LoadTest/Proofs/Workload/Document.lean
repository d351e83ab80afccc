/-
Workloads read back from their printed form.

A workload is read back from every document that holds what it is written as,
whichever format the document comes from: the members that are written are the
members that the readers know, each of them once, and a think time that is not
written is read as none. Nothing in a workload nests deeper than the properties
of its requests, so the limit that JSON texts have is never met.

A request need not be given with all its members. What it takes to read one is
therefore shown for members of which some are left out (`SoapRequest.completes`,
`HttpRequest.completes`), and the
members that are written are a case of that.
-/
import LoadTest.Config.Document
import LoadTest.Proofs.Document.Members
import LoadTest.Workload.Text

set_option autoImplicit false

namespace LoadTest

open Document

/-! ## Parts of a request -/

theorem ThinkTime.reads (form : ArrayForm) (t : ThinkTime) :
    Reads (ThinkTime.read form) t.toJson t := by
  have hdeviation : Fills reader [("deviation_ms", .integer t.deviation.toNat)]
      ⟨some t.mean, none⟩ ⟨some t.mean, some t.deviation⟩ :=
    fills_cons (fun v => ⟨some t.mean, some v⟩) (reads_readUInt64 t.deviation) rfl rfl
      (fun _ => rfl) (fills_nil reader _)
  have hmean : Fills reader
      [("mean_ms", .integer t.mean.toNat), ("deviation_ms", .integer t.deviation.toNat)]
      reader.blank ⟨some t.mean, some t.deviation⟩ :=
    fills_cons (fun v => ⟨some v, none⟩) (reads_readUInt64 t.mean) rfl rfl (fun _ => rfl) hdeviation
  exact reads_record form hmean rfl

/-- A think time is written behind all other members, if there is one. -/
theorem fills_thinkTime {σ α : Type} {r : RecordReader σ α} {form : ArrayForm} {i : Nat} {s : σ}
    (set : Option ThinkTime → σ) (hmember : r.members.idxOf? "think_time" = some i)
    (hempty : r.isSet i s = false)
    (hfill : ∀ d, r.fill i d s = (d.readOption (ThinkTime.read form)).map set)
    (t : Option ThinkTime) :
    Fills r (ThinkTime.members t) s (t.elim s fun t => set (some t)) := by
  cases t with
  | none => exact fills_nil r s
  | some t =>
    exact fills_cons set (ThinkTime.reads form t).option hmember hempty hfill (fills_nil r _)

/-- Both texts of a pair are read, if their members go by different names. -/
theorem reads_textPair {α : Type} (form : ArrayForm) (name : String) {first second : String}
    (make : String → String → α) (hne : first ≠ second) (s t : String) :
    Reads ((textPairReader name first second make).read form)
      (.object [(first, .text s), (second, .text t)]) (make s t) := by
  let r := textPairReader name first second make
  have hfirst : r.members.idxOf? first = some 0 := by
    change [first, second].idxOf? first = some 0
    rw [List.idxOf?_cons, beq_self_eq_true]
    rfl
  have hsecond : r.members.idxOf? second = some 1 := by
    change [first, second].idxOf? second = some 1
    rw [List.idxOf?_cons, beq_eq_false_iff_ne.mpr hne, List.idxOf?_cons, beq_self_eq_true]
    rfl
  have hrest : Fills r [(second, .text t)] ⟨some s, none⟩ ⟨some s, some t⟩ :=
    fills_cons (fun v => ⟨some s, some v⟩) (reads_readText t) hsecond rfl (fun _ => rfl)
      (fills_nil r _)
  have hboth : Fills r [(first, .text s), (second, .text t)] r.blank ⟨some s, some t⟩ :=
    fills_cons (fun v => ⟨some v, none⟩) (reads_readText s) hfirst rfl (fun _ => rfl) hrest
  exact reads_record form hboth rfl

theorem Property.reads (form : ArrayForm) (p : Property) : Reads (Property.read form) p.toJson p :=
  reads_textPair form _ Property.mk (by decide) p.key p.value

theorem Parameter.reads (form : ArrayForm) (p : Parameter) :
    Reads (Parameter.read form) p.toJson p :=
  reads_textPair form _ Parameter.mk (by decide) p.name p.value

theorem Assertion.reads (form : ArrayForm) (a : Assertion) :
    Reads (Assertion.read form) a.toJson a := by
  have hpattern : Fills reader [("pattern_to_test", .text a.pattern)] none (some a.pattern) :=
    fills_cons some (reads_readText a.pattern) rfl rfl (fun _ => rfl) (fills_nil reader _)
  exact reads_record form hpattern rfl

/-! ## Requests -/

/-- All members of a request in declaration order, with null for an absent think time. -/
def SoapRequest.allMembers (r : SoapRequest) : List (String × Json) :=
  [("e_id", .text r.id), ("properties", .array (r.properties.map Property.toJson)),
    ("assertions", .array (r.assertions.map Assertion.toJson)),
    ("think_time", Json.ofOption ThinkTime.toJson r.thinkTime)]

/-- All members of a request in declaration order, with null for an absent think time. -/
def HttpRequest.allMembers (r : HttpRequest) : List (String × Json) :=
  [("e_id", .text r.id), ("properties", .array (r.properties.map Property.toJson)),
    ("parameters", .array (r.parameters.map Parameter.toJson)),
    ("assertions", .array (r.assertions.map Assertion.toJson)),
    ("think_time", Json.ofOption ThinkTime.toJson r.thinkTime)]

namespace Request

/-- All members of a request behind its kind. -/
def allMembers : Request → List (String × Json)
  | soap r => r.allMembers
  | http r => r.allMembers

/-- The members that may be left out, with the values that they then have. -/
def standardMembers : List (String × Json) :=
  [("properties", .array []), ("parameters", .array []), ("assertions", .array []),
    ("think_time", .null)]

/-- Members of which some that have their standard value are left out; the others
are as they were. -/
abbrev Abridged : List (String × Json) → List (String × Json) → Prop :=
  Json.Abridged standardMembers fun _ j j' => j = j'

/-- What is written is abridged: an absent think time is left out. -/
theorem abridged_contentMembers (r : Request) : Abridged r.allMembers r.contentMembers := by
  have htime (t : Option ThinkTime) :
      Abridged [("think_time", Json.ofOption ThinkTime.toJson t)] (ThinkTime.members t) := by
    cases t with
    | none => exact .leave rfl .nil
    | some t => exact .keep rfl .nil
  cases r with
  | soap r => exact .keep rfl (.keep rfl (.keep rfl (htime r.thinkTime)))
  | http r => exact .keep rfl (.keep rfl (.keep rfl (.keep rfl (htime r.thinkTime))))

end Request

/-- A think time that may be absent is read from what it is written as, with null
for none. -/
theorem ThinkTime.reads_ofOption (form : ArrayForm) (t : Option ThinkTime) :
    Reads (readOption (ThinkTime.read form)) (Json.ofOption ThinkTime.toJson t) t := by
  cases t with
  | none => exact reads_readOption_null
  | some t => exact (ThinkTime.reads form t).option

/-- The members of a request lead back to it, also without some that have their
standard value. -/
theorem SoapRequest.completes (form : ArrayForm) (r : SoapRequest) {own : List (String × Json)}
    (h : Request.Abridged r.allMembers own) : Completes (reader form) own .blank r := by
  obtain ⟨id, properties, assertions, t⟩ := r
  have hproperties := reads_readList (Property.reads form) properties
  have hassertions := reads_readList (Assertion.reads form) assertions
  have htime := ThinkTime.reads_ofOption form t
  -- the identifier has no standard value; behind it, each slot may be left empty
  obtain ⟨_, own, rfl, rfl, hown⟩ := h.exists_keep rfl
  refine completes_cons (fun v => { RequestSlots.blank with id := some v }) (reads_readText id)
    rfl rfl (fun _ => rfl) ?_
  refine hown.completes rfl (reads_readList (Property.reads form) []) hproperties
    (fun _ h => h ▸ hproperties) (fun o => ⟨some id, o, none, none, none⟩) rfl rfl rfl
    (fun _ => rfl) fun ps own hps hown => ?_
  refine hown.completes rfl (reads_readList (Assertion.reads form) []) hassertions
    (fun _ h => h ▸ hassertions) (fun o => ⟨some id, ps, none, o, none⟩) rfl rfl rfl (fun _ => rfl)
    fun as own has hown => ?_
  refine hown.completes rfl reads_readOption_null htime
    (fun _ h => h ▸ htime) (fun o => ⟨some id, ps, none, as, o⟩) rfl rfl rfl (fun _ => rfl)
    fun ts own hts hown => ?_
  cases hown
  refine completes_nil ?_
  change Except.ok (SoapRequest.mk id (ps.getD []) (as.getD []) (ts.getD none)) = _
  rw [hps, has, hts]

/-- The same for the other kind. -/
theorem HttpRequest.completes (form : ArrayForm) (r : HttpRequest) {own : List (String × Json)}
    (h : Request.Abridged r.allMembers own) : Completes (reader form) own .blank r := by
  obtain ⟨id, properties, parameters, assertions, t⟩ := r
  have hproperties := reads_readList (Property.reads form) properties
  have hparameters := reads_readList (Parameter.reads form) parameters
  have hassertions := reads_readList (Assertion.reads form) assertions
  have htime := ThinkTime.reads_ofOption form t
  obtain ⟨_, own, rfl, rfl, hown⟩ := h.exists_keep rfl
  refine completes_cons (fun v => { RequestSlots.blank with id := some v }) (reads_readText id)
    rfl rfl (fun _ => rfl) ?_
  refine hown.completes rfl (reads_readList (Property.reads form) []) hproperties
    (fun _ h => h ▸ hproperties) (fun o => ⟨some id, o, none, none, none⟩) rfl rfl rfl
    (fun _ => rfl) fun ps own hps hown => ?_
  refine hown.completes rfl (reads_readList (Parameter.reads form) []) hparameters
    (fun _ h => h ▸ hparameters) (fun o => ⟨some id, ps, o, none, none⟩) rfl rfl rfl (fun _ => rfl)
    fun qs own hqs hown => ?_
  refine hown.completes rfl (reads_readList (Assertion.reads form) []) hassertions
    (fun _ h => h ▸ hassertions) (fun o => ⟨some id, ps, qs, o, none⟩) rfl rfl rfl (fun _ => rfl)
    fun as own has hown => ?_
  refine hown.completes rfl reads_readOption_null htime
    (fun _ h => h ▸ htime) (fun o => ⟨some id, ps, qs, as, o⟩) rfl rfl rfl (fun _ => rfl)
    fun ts own hts hown => ?_
  cases hown
  refine completes_nil ?_
  change Except.ok (HttpRequest.mk id (ps.getD []) (qs.getD []) (as.getD []) (ts.getD none)) = _
  rw [hps, hqs, has, hts]

/-- The own members of a SOAP request are read back. -/
theorem SoapRequest.reads (form : ArrayForm) (r : SoapRequest) :
    Reads (SoapRequest.read form) r.toJson r :=
  (completes form r (Request.soap r).abridged_contentMembers).reads form

/-- The own members of an HTTP request are read back. -/
theorem HttpRequest.reads (form : ArrayForm) (r : HttpRequest) :
    Reads (HttpRequest.read form) r.toJson r :=
  (completes form r (Request.http r).abridged_contentMembers).reads form

/-- The identifier of a kind is the tag of that kind. -/
theorem RequestKind.readTag_identifier (k : RequestKind) : readTag (.text k.identifier) = .ok k := by
  change variantNamed identifiers ofIdentifier? k.identifier = _
  rw [variantNamed, ofIdentifier?_identifier]

namespace Request

/-- No member of a request has the name of the tag, whether it is written or left out. -/
theorem tagName_not_mem_allMembers (r : Request) : tagName ∉ r.allMembers.map Prod.fst := by
  cases r with
  | soap r =>
    have hnames : tagName ∉ ["e_id", "properties", "assertions", "think_time"] := by decide
    exact hnames
  | http r =>
    have hnames : tagName ∉ ["e_id", "properties", "parameters", "assertions", "think_time"] := by
      decide
    exact hnames

/-- No member that is written has the name of the tag. -/
theorem tagName_not_mem (r : Request) : tagName ∉ r.contentMembers.map Prod.fst :=
  fun h => r.tagName_not_mem_allMembers (r.abridged_contentMembers.name_mem h)

/-- A request is read if all that is in it can be taken in. -/
theorem reads {r : Request} (hfit : ∀ m ∈ r.contentMembers, m.2.AllFit) :
    Reads Request.read r.toJson r := by
  have hcontent : Reads (readContent · r.kind) (.object r.contentMembers) r := by
    cases r with
    | soap r => exact (SoapRequest.reads .counted r).map soap
    | http r => exact (HttpRequest.reads .counted r).map http
  exact Reads.tagged r.kind.readTag_identifier r.tagName_not_mem hfit hcontent

end Request

/-! ## What is in a workload -/

/-- The names of all members that are written. -/
def Workload.memberNames : List String :=
  ["name", "requests", "type", "e_id", "properties", "parameters", "assertions", "key", "value",
    "pattern_to_test", "think_time", "mean_ms", "deviation_ms"]

/-- The texts in a request, apart from its kind. -/
def Request.texts : Request → List String
  | soap r =>
    r.id :: r.properties.flatMap (fun p => [p.key, p.value]) ++ r.assertions.map (·.pattern)
  | http r =>
    r.id :: r.properties.flatMap (fun p => [p.key, p.value])
      ++ r.parameters.flatMap (fun p => [p.name, p.value]) ++ r.assertions.map (·.pattern)

/-- The texts in a workload, apart from the kinds of its requests. -/
def Workload.texts (w : Workload) : List String := w.name :: w.requests.flatMap Request.texts

section Every

variable {leaf : Json → Prop} {key : String → Prop}

/-- What holds of the texts of pairs, and of the names of their two members, holds
throughout the array of the pairs. -/
theorem every_textPairs {α : Type} {write : α → Json} {first second : String} {f g : α → String}
    (hwrite : ∀ a, write a = .object [(first, .text (f a)), (second, .text (g a))])
    (hfirst : key first) (hsecond : key second) {as : List α}
    (htext : ∀ s ∈ as.flatMap fun a => [f a, g a], leaf (.text s)) :
    Json.Every leaf key (.array (as.map write)) := by
  rw [Json.every_array, List.forall_mem_map]
  intro a ha
  have hpair : ∀ s ∈ [f a, g a], leaf (.text s) := fun s hs =>
    htext s (List.mem_flatMap.mpr ⟨a, ha, hs⟩)
  rw [List.forall_mem_cons, List.forall_mem_singleton] at hpair
  rw [hwrite]
  exact ⟨⟨hfirst, hpair.1⟩, ⟨hsecond, hpair.2⟩, trivial⟩

/-- What holds of the patterns holds throughout the array of assertions. -/
theorem every_assertions (hkey : key "pattern_to_test") {as : List Assertion}
    (htext : ∀ s ∈ as.map (·.pattern), leaf (.text s)) :
    Json.Every leaf key (.array (as.map Assertion.toJson)) := by
  rw [Json.every_array, List.forall_mem_map]
  rw [List.forall_mem_map] at htext
  exact fun a ha => ⟨⟨hkey, htext a ha⟩, trivial⟩

variable (hkey : ∀ k ∈ Workload.memberNames, key k) (hnum : ∀ n : UInt64, leaf (.integer n.toNat))

include hkey hnum

/-- What holds of integers and of the three names holds of the member for a pause. -/
theorem ThinkTime.every_members (t : Option ThinkTime) :
    ∀ m ∈ ThinkTime.members t, key m.1 ∧ Json.Every leaf key m.2 := by
  cases t with
  | none => exact fun m hm => absurd hm List.not_mem_nil
  | some t =>
    refine List.forall_mem_singleton.mpr ⟨hkey "think_time" (by decide), ?_⟩
    exact ⟨⟨hkey "mean_ms" (by decide), hnum t.mean⟩,
      ⟨hkey "deviation_ms" (by decide), hnum t.deviation⟩, trivial⟩

/-- What holds of the texts of a request holds throughout its members. -/
theorem Request.every_contentMembers {r : Request} (htext : ∀ s ∈ r.texts, leaf (.text s)) :
    ∀ m ∈ r.contentMembers, key m.1 ∧ Json.Every leaf key m.2 := by
  have hid : key "e_id" := hkey _ (by decide)
  have hproperties : key "properties" := hkey _ (by decide)
  have hparameters : key "parameters" := hkey _ (by decide)
  have hassertions : key "assertions" := hkey _ (by decide)
  have hpattern : key "pattern_to_test" := hkey _ (by decide)
  have hvalue : key "value" := hkey _ (by decide)
  cases r with
  | soap r =>
    simp only [texts, List.forall_mem_append, List.forall_mem_cons] at htext
    obtain ⟨⟨hr, hps⟩, has⟩ := htext
    have hps := every_textPairs (fun _ => rfl) (hkey "key" (by decide)) hvalue hps
    simp only [contentMembers, SoapRequest.members, List.forall_mem_append, List.forall_mem_cons]
    exact ⟨⟨⟨hid, hr⟩, ⟨hproperties, hps⟩, ⟨hassertions, every_assertions hpattern has⟩,
      List.forall_mem_nil _⟩,
      ThinkTime.every_members hkey hnum r.thinkTime⟩
  | http r =>
    simp only [texts, List.forall_mem_append, List.forall_mem_cons] at htext
    obtain ⟨⟨⟨hr, hps⟩, hqs⟩, has⟩ := htext
    have hps := every_textPairs (fun _ => rfl) (hkey "key" (by decide)) hvalue hps
    have hqs := every_textPairs (fun _ => rfl) (hkey "name" (by decide)) hvalue hqs
    simp only [contentMembers, HttpRequest.members, List.forall_mem_append, List.forall_mem_cons]
    exact ⟨⟨⟨hid, hr⟩, ⟨hproperties, hps⟩, ⟨hparameters, hqs⟩,
      ⟨hassertions, every_assertions hpattern has⟩, List.forall_mem_nil _⟩,
      ThinkTime.every_members hkey hnum r.thinkTime⟩

/-- What holds of the kinds, the texts and all integers of 64 bits holds throughout. -/
theorem Workload.every_toJson (hkind : ∀ k : RequestKind, leaf (.text k.identifier)) {w : Workload}
    (htext : ∀ s ∈ w.texts, leaf (.text s)) : Json.Every leaf key w.toJson := by
  rw [texts, List.forall_mem_cons, List.forall_mem_flatMap] at htext
  have hrequests : Json.Every leaf key (.array (w.requests.map Request.toJson)) := by
    rw [Json.every_array, List.forall_mem_map]
    intro r hr
    rw [Request.toJson, Json.every_object, List.forall_mem_cons]
    exact ⟨⟨hkey Request.tagName (by decide), hkind r.kind⟩,
      Request.every_contentMembers hkey hnum (htext.2 r hr)⟩
  rw [toJson, Json.every_object]
  simp only [List.forall_mem_append, List.forall_mem_cons]
  exact ⟨⟨⟨hkey "name" (by decide), htext.1⟩, ⟨hkey "requests" (by decide), hrequests⟩,
    List.forall_mem_nil _⟩,
    ThinkTime.every_members hkey hnum w.thinkTime⟩

end Every

/-! ## Whole workloads -/

theorem Request.allFit_contentMembers (r : Request) : ∀ m ∈ r.contentMembers, m.2.AllFit :=
  fun m hm => (Request.every_contentMembers (fun _ _ => trivial) Json.fitsWord_uint64
    (fun _ _ => trivial) m hm).2

namespace Workload

theorem allFit_toJson (w : Workload) : w.toJson.AllFit :=
  every_toJson (fun _ _ => trivial) Json.fitsWord_uint64 (fun _ => trivial) fun _ _ => trivial

/-- A workload is read from every document that holds it. -/
theorem reads (form : ArrayForm) (w : Workload) : Reads (Workload.read form) w.toJson w := by
  have hrequests : Reads (readList Request.read) (.array (w.requests.map Request.toJson))
      w.requests :=
    reads_readList (fun r => Request.reads r.allFit_contentMembers) w.requests
  let filled : Slots := ⟨some w.name, some w.requests, none⟩
  let set : Option ThinkTime → Slots := fun t => { filled with thinkTime := some t }
  have hfills : Fills (reader form) ([("name", .text w.name),
      ("requests", .array (w.requests.map Request.toJson))] ++ ThinkTime.members w.thinkTime)
      ⟨none, none, none⟩ (w.thinkTime.elim filled fun t => set (some t)) := by
    refine fills_cons (fun v => ⟨some v, none, none⟩) (reads_readText w.name) rfl rfl
      (fun _ => rfl) ?_
    refine fills_cons (fun v => ⟨some w.name, some v, none⟩) hrequests rfl rfl (fun _ => rfl) ?_
    exact fills_thinkTime set rfl rfl (fun _ => rfl) w.thinkTime
  refine reads_record form hfills ?_
  obtain ⟨name, requests, t⟩ := w
  cases t with
  | none => rfl
  | some t => rfl

end Workload

/-! ## Levels -/

/-- A pause nests one level. -/
theorem ThinkTime.nesting_members_le (t : Option ThinkTime) :
    ∀ m ∈ ThinkTime.members t, m.2.nesting ≤ 1 := by
  cases t with
  | none => exact fun m hm => absurd hm List.not_mem_nil
  | some t => exact List.forall_mem_singleton.mpr (Nat.le_refl 1)

/-- A list nests one level more than what is listed. -/
theorem nesting_list_le {α : Type} {write : α → Json} {n : Nat} (h : ∀ a, (write a).nesting ≤ n)
    (as : List α) : (Json.array (as.map write)).nesting ≤ n + 1 :=
  Json.nesting_array_le.mpr (List.forall_mem_map.mpr fun a _ => h a)

/-- A request nests three levels: itself, a list, and what is listed. -/
theorem Request.nesting_toJson_le (r : Request) : r.toJson.nesting ≤ 3 := by
  have hproperties (ps : List Property) : (Json.array (ps.map Property.toJson)).nesting ≤ 2 :=
    nesting_list_le (fun _ => Nat.le_refl 1) ps
  have hparameters (ps : List Parameter) : (Json.array (ps.map Parameter.toJson)).nesting ≤ 2 :=
    nesting_list_le (fun _ => Nat.le_refl 1) ps
  have hassertions (as : List Assertion) : (Json.array (as.map Assertion.toJson)).nesting ≤ 2 :=
    nesting_list_le (fun _ => Nat.le_refl 1) as
  have htime := fun m hm => Nat.le_succ_of_le (ThinkTime.nesting_members_le r.thinkTime m hm)
  refine Json.nesting_object_le.mpr (List.forall_mem_cons.mpr ⟨Nat.zero_le 2, ?_⟩)
  cases r with
  | soap r =>
    simp only [contentMembers, SoapRequest.members, List.forall_mem_append, List.forall_mem_cons]
    exact ⟨⟨Nat.zero_le 2, hproperties r.properties, hassertions r.assertions,
      List.forall_mem_nil _⟩, htime⟩
  | http r =>
    simp only [contentMembers, HttpRequest.members, List.forall_mem_append, List.forall_mem_cons]
    exact ⟨⟨Nat.zero_le 2, hproperties r.properties, hparameters r.parameters,
      hassertions r.assertions, List.forall_mem_nil _⟩, htime⟩

namespace Workload

/-- The properties of a request stand deepest. -/
theorem nesting_toJson_le (w : Workload) : w.toJson.nesting ≤ 5 := by
  have htime := fun m hm =>
    Nat.le_trans (ThinkTime.nesting_members_le w.thinkTime m hm) (Nat.le_add_left 1 3)
  have hrequests := nesting_list_le Request.nesting_toJson_le w.requests
  refine Json.nesting_object_le.mpr ?_
  simp only [List.forall_mem_append, List.forall_mem_cons]
  exact ⟨⟨Nat.zero_le 4, hrequests, List.forall_mem_nil _⟩, htime⟩

/-- Every printed workload is read back as itself. -/
theorem parse_json_print (w : Workload) : parse .json w.print = .ok w :=
  (w.reads .exact).decode_print w.allFit_toJson
    (Nat.le_trans w.nesting_toJson_le (by decide : 5 ≤ Json.maxDepth))

/-- Every workload is read back from its JSON text as it was, so no two
workloads are written alike. -/
theorem printed_json_is_read_back :
    (∀ w : Workload, parse .json w.print = .ok w) ∧ Function.Injective print := by
  refine ⟨parse_json_print, fun w v h => ?_⟩
  have hparse : (.ok w : Decoded Workload) = .ok v := by
    rw [← parse_json_print w, h, parse_json_print v]
  exact Except.ok.inj hparse

end Workload

end LoadTest
