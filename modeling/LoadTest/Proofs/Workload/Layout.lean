/-
Requests in other layouts.

A request is written as an object with its kind first and its members in
declaration order. It is read just as well from its members in any other order,
without those that have their standard value, and with members of other names
among them; and from an array of its kind and its members
(`Request.reads_every_layout`). `Request.Layout` lists these layouts.

A request is read from its members in declaration order, also if some are left out
(`SoapRequest.completes`, `HttpRequest.completes`), and both kinds of layout come
down to that. In an object the members can be brought in order, since no slot of a
request depends on another one (`SoapRequest.independent`,
`HttpRequest.independent`). In an array they are told by their places.
-/
import LoadTest.Proofs.Workload.Document
import Mathlib.Tactic.IntervalCases

set_option autoImplicit false

namespace LoadTest

open Document

/-! ## Layouts -/

namespace Request

/-- The contents that a request may be given as. -/
inductive Layout (r : Request) : Json.Content → Prop
  /-- The kind, the members of the request and members with other names, in any order. -/
  | object {own : List (String × Json)} {foreign ms : List (String × Json.Content)}
      (hown : Abridged r.allMembers own)
      (hforeign : ∀ m ∈ foreign, m.1 ∉ tagName :: r.allMembers.map Prod.fst)
      (hms : ms.Perm (Json.contentMembers ((tagName, r.kind.toJson) :: own) ++ foreign)) :
      Layout r (.object ms)
  /-- The kind and the members of the request, without some at the end. -/
  | array {given omitted : List (String × Json)} (hall : r.allMembers = given ++ omitted)
      (homitted : ∀ m ∈ omitted, standardMembers.lookup m.1 = some m.2) :
      Layout r (.array (r.kind.toJson.content :: given.map fun m => m.2.content))

end Request

/-! ## Slots

Each member is read into a field of its own, so what remains to be shown of any
two of them is settled by computation. -/

theorem SoapRequest.independent (form : ArrayForm) : (reader form).Independent where
  isSet_fill {i d s s'} hi h := by
    change i < 4 at hi
    interval_cases i <;> obtain ⟨v, -, rfl⟩ := Decoded.map_eq_ok.mp h <;> rfl
  isSet_fill_of_ne {i k d s s'} hi hk hne h := by
    change i < 4 at hi
    change k < 4 at hk
    interval_cases i <;> obtain ⟨v, -, rfl⟩ := Decoded.map_eq_ok.mp h <;> interval_cases k <;>
      first | rfl | exact absurd rfl hne
  fill_comm {i k d e s s₁ s₂} hi hk hne h₁ h₂ := by
    change i < 4 at hi
    change k < 4 at hk
    interval_cases i <;> obtain ⟨v, hv, rfl⟩ := Decoded.map_eq_ok.mp h₁ <;> interval_cases k <;>
      obtain ⟨w, hw, rfl⟩ := Decoded.map_eq_ok.mp h₂ <;>
      first
        | exact absurd rfl hne
        | exact ⟨_, Decoded.map_eq_ok.mpr ⟨w, hw, rfl⟩, Decoded.map_eq_ok.mpr ⟨v, hv, rfl⟩⟩

theorem HttpRequest.independent (form : ArrayForm) : (reader form).Independent where
  isSet_fill {i d s s'} hi h := by
    change i < 5 at hi
    interval_cases i <;> obtain ⟨v, -, rfl⟩ := Decoded.map_eq_ok.mp h <;> rfl
  isSet_fill_of_ne {i k d s s'} hi hk hne h := by
    change i < 5 at hi
    change k < 5 at hk
    interval_cases i <;> obtain ⟨v, -, rfl⟩ := Decoded.map_eq_ok.mp h <;> interval_cases k <;>
      first | rfl | exact absurd rfl hne
  fill_comm {i k d e s s₁ s₂} hi hk hne h₁ h₂ := by
    change i < 5 at hi
    change k < 5 at hk
    interval_cases i <;> obtain ⟨v, hv, rfl⟩ := Decoded.map_eq_ok.mp h₁ <;> interval_cases k <;>
      obtain ⟨w, hw, rfl⟩ := Decoded.map_eq_ok.mp h₂ <;>
      first
        | exact absurd rfl hne
        | exact ⟨_, Decoded.map_eq_ok.mpr ⟨w, hw, rfl⟩, Decoded.map_eq_ok.mpr ⟨v, hv, rfl⟩⟩

/-! ## Whole requests -/

namespace Request

theorem exists_allMembers_eq (r : Request) :
    ∃ ms, r.allMembers = ("e_id", .text r.id) :: ms := by
  cases r with
  | soap r => exact ⟨_, rfl⟩
  | http r => exact ⟨_, rfl⟩

/-- The content of a request is read from its members in any order, with members of
other names among them. -/
theorem readContent_object {r : Request} {own : List (String × Json)}
    {foreign ms : List (String × Json.Content)} (hown : Abridged r.allMembers own)
    (hforeign : ∀ m ∈ foreign, m.1 ∉ r.allMembers.map Prod.fst)
    (hms : ms.Perm (Json.contentMembers own ++ foreign)) :
    readContent (Json.Content.object ms).document r.kind = .ok r := by
  cases r with
  | soap r =>
    have hmembers := SoapRequest.completes .counted r hown
    exact congrArg (Except.map soap)
      ((SoapRequest.independent .counted).read_object .counted hmembers hforeign hms)
  | http r =>
    have hmembers := HttpRequest.completes .counted r hown
    exact congrArg (Except.map http)
      ((HttpRequest.independent .counted).read_object .counted hmembers hforeign hms)

/-- The content of a request is read from the array of its members. -/
theorem readContent_array {r : Request} {given omitted : List (String × Json)}
    (hall : r.allMembers = given ++ omitted)
    (homitted : ∀ m ∈ omitted, standardMembers.lookup m.1 = some m.2) :
    readContent (Json.Content.array (given.map fun m => m.2.content)).document r.kind = .ok r := by
  have hown : Abridged r.allMembers given := by
    rw [hall]
    exact .of_append (fun _ _ => rfl) homitted
  have hnames : r.allMembers.map Prod.fst = given.map Prod.fst ++ omitted.map Prod.fst := by
    rw [hall, List.map_append]
  -- the identifier has no standard value, so only members behind it are missing
  have hoptional : ∀ n, given.length ≤ n → decide (0 < n) = true := by
    obtain ⟨ms, hms⟩ := r.exists_allMembers_eq
    rw [hms] at hown
    obtain ⟨j, rest, rfl, -, -⟩ := hown.exists_keep rfl
    intro n hn
    rw [List.length_cons] at hn
    exact decide_eq_true (by omega)
  cases r with
  | soap r =>
    have hmembers := SoapRequest.completes .counted r hown
    have hnodup : (SoapRequest.reader .counted).members.Nodup := by decide
    exact congrArg (Except.map soap)
      (RecordReader.read_array hnodup (by decide) hnames hoptional hmembers)
  | http r =>
    have hmembers := HttpRequest.completes .counted r hown
    have hnodup : (HttpRequest.reader .counted).members.Nodup := by decide
    exact congrArg (Except.map http)
      (RecordReader.read_array hnodup (by decide) hnames hoptional hmembers)

/-- What is written is one of the layouts: only an absent think time is left out. -/
theorem layout_toJson (r : Request) : r.Layout r.toJson.content := by
  have hforeign : ∀ m ∈ ([] : List (String × Json.Content)),
      m.1 ∉ tagName :: r.allMembers.map Prod.fst := List.forall_mem_nil _
  refine .object r.abridged_contentMembers hforeign ?_
  rw [List.append_nil]

/-- A request is read back from every layout, and from every text that stands for
one; what is written is one of them. -/
theorem reads_every_layout (r : Request) :
    r.Layout r.toJson.content
    ∧ ∀ c, r.Layout c →
      read c.document = .ok r ∧ ∀ s, Json.Denotes s c → Json.decode read s = .ok r := by
  refine ⟨r.layout_toJson, fun c hc => ?_⟩
  have htag := r.kind.readTag_identifier
  have hread : read c.document = .ok r := by
    cases hc with
    | @object own foreign ms hown hforeign hms =>
      have hrest : tagName ∉ (Json.contentMembers own ++ foreign).map Prod.fst := by
        rw [List.map_append, Json.map_fst_contentMembers, List.mem_append, not_or]
        constructor
        · exact fun h => r.tagName_not_mem_allMembers (hown.name_mem h)
        · intro h
          obtain ⟨m, hm, heq⟩ := List.mem_map.mp h
          exact hforeign m hm (heq ▸ List.mem_cons_self)
      obtain ⟨ms', hperm, htagged⟩ := readTagged_object "Request" htag hms hrest
      rw [read, htagged]
      exact readContent_object hown
        (fun m hm h => hforeign m hm (List.mem_cons_of_mem _ h)) hperm
    | @array given omitted hall homitted =>
      let content := Json.Content.array (given.map fun m => m.2.content)
      have htagged : readTagged "Request" tagName RequestKind.readTag
          (Json.Content.array (r.kind.toJson.content :: given.map fun m => m.2.content)).document
          = .ok (r.kind, content.document) := readTagged_array "Request" htag _
      rw [read, htagged]
      exact readContent_array hall homitted
  exact ⟨hread, fun s hs => by rw [hs.decode, hread]⟩

/-- A SOAP request with its kind last, without the members that have their standard
value, and with members of other names. -/
theorem reads_soap_with_parameters :
    Json.decode read
      "\x7b\"x\": null, \"parameters\": [1.5, \x7b\x7d], \"e_id\": \"a\", \"type\": \"soap\"\x7d"
      = .ok (soap (.new "a")) := by
  let foreign : List (String × Json.Content) :=
    [("parameters", .array [.float (.ofDecimal false 15 (-1)), .object []]), ("x", .null)]
  have hown : Abridged (soap (.new "a")).allMembers [("e_id", .text "a")] :=
    .keep rfl (.leave rfl (.leave rfl (.leave rfl .nil)))
  have hforeign : ∀ m ∈ foreign, m.1 ∉ tagName :: (soap (.new "a")).allMembers.map Prod.fst :=
    List.forall_mem_cons.mpr ⟨by decide, List.forall_mem_singleton.mpr (by decide)⟩
  let own : List (String × Json) := [("type", .text "soap"), ("e_id", .text "a")]
  have hlayout : (soap (.new "a")).Layout (.object (Json.contentMembers own ++ foreign).reverse) :=
    .object hown hforeign (List.reverse_perm _)
  exact ((reads_every_layout (soap (.new "a"))).2 _ hlayout).2 _ rfl

end Request

end LoadTest
