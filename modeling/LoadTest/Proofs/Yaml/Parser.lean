/-
The nodes of printed values.

The tokens of a printed value are put together to a node of the same shape:
texts become quoted scalars, words unquoted ones, and nothing has a tag or an
anchor. Each value takes no more steps than three for every one of its tokens,
which is what the parser allows for.
-/
import LoadTest.Proofs.Yaml.Tokens
import LoadTest.Yaml.Parser

set_option autoImplicit false

namespace LoadTest.Yaml

/-! ## What is expected -/

mutual
/-- The node of a printed value. -/
def flowNode : Json → Node
  | .text s => .scalar none s .quoted
  | .array js => .sequence none (itemNodes js)
  | .object es => .mapping none (memberNodes es)
  | j => .scalar none j.print .plain

/-- The nodes of elements. -/
def itemNodes : List Json → List Node
  | [] => []
  | j :: js => flowNode j :: itemNodes js

/-- The nodes of keys and values. -/
def memberNodes : List (String × Json) → List (Node × Node)
  | [] => []
  | (k, j) :: es => (.scalar none k .quoted, flowNode j) :: memberNodes es
end

/-- The node of a word has the text of the word, which is what the word is read from
later. -/
theorem flowNode_of_isWord {j : Json} (hj : j.isWord = true) :
    flowNode j = .scalar none j.print .plain := by
  obtain rfl | ⟨b, rfl⟩ | ⟨n, rfl⟩ := Json.eq_of_isWord hj
  · rfl
  · rfl
  · rfl

/-- A token that a printed value begins with. -/
def IsFirst (t : Token) : Prop :=
  (∃ s style, t = .scalar s style) ∨ t = .flowSequenceStart ∨ t = .flowMappingStart

/-- The tokens of a value begin with a scalar or with an opening bracket, never with a
comma, a key or an end. -/
theorem flowTokens_eq_cons (j : Json) : ∃ t ts, flowTokens j = t :: ts ∧ IsFirst t := by
  rcases j with _ | b | n | s | js | es
  · exact ⟨_, _, rfl, .inl ⟨_, _, rfl⟩⟩
  · exact ⟨_, _, rfl, .inl ⟨_, _, rfl⟩⟩
  · exact ⟨_, _, rfl, .inl ⟨_, _, rfl⟩⟩
  · exact ⟨_, _, rfl, .inl ⟨_, _, rfl⟩⟩
  · exact ⟨_, _, rfl, .inr (.inl rfl)⟩
  · exact ⟨_, _, rfl, .inr (.inr rfl)⟩

theorem length_flowTokens_pos (j : Json) : 0 < (flowTokens j).length := by
  obtain ⟨t, ts, hts, -⟩ := flowTokens_eq_cons j
  rw [hts]
  exact Nat.succ_pos _

/-! ## Single steps -/

section Steps

variable {handles : Handles} {fuel : Nat} {t : Token} {ts : List Token} {a : Anchors}
  {n v : Node} {r r' r'' : Remaining}

/-- In front of the value there is neither an anchor nor a tag. -/
theorem node_of_content {site : Site} (ht : IsFirst t)
    (hcontent : content handles fuel site ⟨none, none⟩ none ⟨t :: ts, a⟩ = some (n, r)) :
    node handles (fuel + 1) site ⟨t :: ts, a⟩ = some (n, r) := by
  rcases ht with ⟨s, style, rfl⟩ | rfl | rfl
  · change ((content handles fuel site ⟨none, none⟩ none ⟨_, a⟩).bind fun c => _) = _
    rw [hcontent]
    rfl
  · change ((content handles fuel site ⟨none, none⟩ none ⟨_, a⟩).bind fun c => _) = _
    rw [hcontent]
    rfl
  · change ((content handles fuel site ⟨none, none⟩ none ⟨_, a⟩).bind fun c => _) = _
    rw [hcontent]
    rfl

/-- A scalar is a node by itself. -/
theorem node_scalar (site : Site) (s : String) (style : ScalarStyle) :
    node handles (fuel + 2) site ⟨.scalar s style :: ts, a⟩
      = some (.scalar none s style, ⟨ts, a⟩) :=
  node_of_content (.inl ⟨s, style, rfl⟩) rfl

/-- An opening bracket and the entries behind it are one node. -/
theorem node_sequence (site : Site) {ns : List Node}
    (hitems : flowEntries handles fuel true ⟨ts, a⟩ = some (ns, r)) :
    node handles (fuel + 2) site ⟨.flowSequenceStart :: ts, a⟩ = some (.sequence none ns, r) := by
  refine node_of_content (.inr (.inl rfl)) ?_
  change ((flowEntries handles fuel true ⟨ts, a⟩).bind fun e => _) = _
  rw [hitems]
  rfl

/-- An opening brace and the members behind it are one node. -/
theorem node_mapping (site : Site) {ms : List (Node × Node)}
    (hmembers : flowMembers handles fuel true ⟨ts, a⟩ = some (ms, r)) :
    node handles (fuel + 2) site ⟨.flowMappingStart :: ts, a⟩ = some (.mapping none ms, r) := by
  refine node_of_content (.inr (.inr rfl)) ?_
  change ((flowMembers handles fuel true ⟨ts, a⟩).bind fun e => _) = _
  rw [hmembers]
  rfl

/-- A comma stands in front of all entries but the first. -/
def comma (first : Bool) : List Token := if first then [] else [.flowEntry]

/-- One more entry: its node first, with a comma in front of it unless it is the first,
and then the nodes of the others. -/
theorem flowEntries_next (first : Bool) {ns : List Node} (ht : IsFirst t)
    (hnode : node handles fuel .flow ⟨t :: ts, a⟩ = some (n, r))
    (hrest : flowEntries handles fuel false r = some (ns, r')) :
    flowEntries handles (fuel + 1) first ⟨comma first ++ t :: ts, a⟩ = some (n :: ns, r') := by
  have hstep : flowEntries handles (fuel + 1) first ⟨comma first ++ t :: ts, a⟩
      = (node handles fuel .flow ⟨t :: ts, a⟩).bind fun e =>
        (flowEntries handles fuel false e.2).bind fun es => some (e.1 :: es.1, es.2) := by
    rcases ht with ⟨s, style, rfl⟩ | rfl | rfl
    · cases first <;> rfl
    · cases first <;> rfl
    · cases first <;> rfl
  rw [hstep, hnode, Option.bind_some, hrest, Option.bind_some]

/-- One more member: its key, the node of its value, and then the other members. The
value is two steps further down than the members. -/
theorem flowMembers_next (first : Bool) (k : String) {ms : List (Node × Node)} (ht : IsFirst t)
    (hnode : node handles (fuel + 1) .flow ⟨t :: ts, a⟩ = some (n, r))
    (hrest : flowMembers handles (fuel + 2) false r = some (ms, r')) :
    flowMembers handles (fuel + 3) first ⟨comma first ++ (keyTokens k ++ t :: ts), a⟩
      = some ((.scalar none k .quoted, n) :: ms, r') := by
  have hkey : node handles (fuel + 2) .flow ⟨.scalar k .quoted :: .value :: t :: ts, a⟩
      = some (.scalar none k .quoted, ⟨.value :: t :: ts, a⟩) :=
    node_scalar .flow k .quoted
  have hvalue : flowValue handles (fuel + 2) ⟨.value :: t :: ts, a⟩ = some (n, r) := by
    rw [← hnode]
    rcases ht with ⟨s, style, rfl⟩ | rfl | rfl
    · rfl
    · rfl
    · rfl
  have hstep : flowMembers handles (fuel + 3) first ⟨comma first ++ (keyTokens k ++ t :: ts), a⟩
      = (node handles (fuel + 2) .flow ⟨.scalar k .quoted :: .value :: t :: ts, a⟩).bind fun e =>
        (flowValue handles (fuel + 2) e.2).bind fun v =>
          (flowMembers handles (fuel + 2) false v.2).bind fun es =>
            some ((e.1, v.1) :: es.1, es.2) := by
    cases first <;> rfl
  rw [hstep, hkey, Option.bind_some, hvalue, Option.bind_some, hrest, Option.bind_some]

end Steps

/-! ## Values -/

/-- The node of a value is read in no more than three steps for each token. -/
def Parses (j : Json) : Prop :=
  ∀ handles fuel site ts a, 3 * (flowTokens j).length ≤ fuel →
    node handles fuel site ⟨flowTokens j ++ ts, a⟩ = some (flowNode j, ⟨ts, a⟩)

section Collections

variable {j : Json} {handles : Handles} {fuel : Nat} {ts : List Token} {a : Anchors} {r : Remaining}

/-- A value that parses is parsed as an entry. -/
theorem Parses.flowEntries_cons (hj : Parses j) (first : Bool) {ns : List Node}
    (hfuel : 3 * (flowTokens j).length ≤ fuel)
    (hrest : flowEntries handles fuel false ⟨ts, a⟩ = some (ns, r)) :
    flowEntries handles (fuel + 1) first ⟨comma first ++ (flowTokens j ++ ts), a⟩
      = some (flowNode j :: ns, r) := by
  have hnode := hj handles fuel .flow ts a hfuel
  obtain ⟨t, us, hus, ht⟩ := flowTokens_eq_cons j
  rw [hus, List.cons_append] at hnode ⊢
  exact flowEntries_next first ht hnode hrest

/-- A value that parses is parsed as the value of a member. -/
theorem Parses.flowMembers_cons (hj : Parses j) (first : Bool) (k : String)
    {ms : List (Node × Node)} (hfuel : 3 * (flowTokens j).length ≤ fuel + 1)
    (hrest : flowMembers handles (fuel + 2) false ⟨ts, a⟩ = some (ms, r)) :
    flowMembers handles (fuel + 3) first ⟨comma first ++ (keyTokens k ++ (flowTokens j ++ ts)), a⟩
      = some ((.scalar none k .quoted, flowNode j) :: ms, r) := by
  have hnode := hj handles (fuel + 1) .flow ts a hfuel
  obtain ⟨t, us, hus, ht⟩ := flowTokens_eq_cons j
  rw [hus, List.cons_append] at hnode ⊢
  exact flowMembers_next first k ht hnode hrest

/-- Elements that parse are parsed in a row, up to the end of the sequence. -/
theorem flowEntries_items {js : List Json} (hjs : ∀ j ∈ js, Parses j) (hne : js ≠ [])
    (first : Bool) (hfuel : 3 * (itemTokens js).length + 1 ≤ fuel) :
    flowEntries handles fuel first ⟨comma first ++ (itemTokens js ++ .flowSequenceEnd :: ts), a⟩
      = some (itemNodes js, ⟨ts, a⟩) := by
  induction js generalizing fuel first with
  | nil => exact absurd rfl hne
  | cons j js ih =>
    obtain ⟨fuel, rfl⟩ := Nat.exists_eq_add_one.mpr (Nat.lt_of_lt_of_le (Nat.succ_pos _) hfuel)
    obtain ⟨hj, hjs⟩ := List.forall_mem_cons.mp hjs
    have hpos := length_flowTokens_pos j
    rcases js with _ | ⟨j', js⟩
    · have hlength : (itemTokens [j]).length = (flowTokens j).length := rfl
      obtain ⟨fuel, rfl⟩ := Nat.exists_eq_add_one.mpr (by omega : 0 < fuel)
      exact hj.flowEntries_cons first (by omega) rfl
    · have hlength : (itemTokens (j :: j' :: js)).length
          = (flowTokens j).length + ((itemTokens (j' :: js)).length + 1) :=
        List.length_append
      have happend : itemTokens (j :: j' :: js) ++ .flowSequenceEnd :: ts = flowTokens j
          ++ (comma false ++ (itemTokens (j' :: js) ++ .flowSequenceEnd :: ts)) :=
        List.append_assoc _ _ _
      rw [happend]
      exact hj.flowEntries_cons first (by omega)
        (ih hjs (List.cons_ne_nil j' js) false (by omega))

/-- Members whose values parse are parsed in a row, up to the end of the mapping. -/
theorem flowMembers_members {es : List (String × Json)} (hes : ∀ e ∈ es, Parses e.2) (hne : es ≠ [])
    (first : Bool) (hfuel : 3 * (memberTokens es).length + 1 ≤ fuel) :
    flowMembers handles fuel first ⟨comma first ++ (memberTokens es ++ .flowMappingEnd :: ts), a⟩
      = some (memberNodes es, ⟨ts, a⟩) := by
  induction es generalizing fuel first with
  | nil => exact absurd rfl hne
  | cons e es ih =>
    obtain ⟨k, j⟩ := e
    obtain ⟨hj, hes⟩ := List.forall_mem_cons.mp hes
    replace hj : Parses j := hj
    have hpos := length_flowTokens_pos j
    rcases es with _ | ⟨e', es⟩
    · have hlength : (memberTokens [(k, j)]).length = 3 + (flowTokens j).length :=
        List.length_append
      obtain ⟨fuel, rfl⟩ := Nat.exists_eq_add_of_le' (by omega : 3 ≤ fuel)
      have happend : memberTokens [(k, j)] ++ .flowMappingEnd :: ts
          = keyTokens k ++ (flowTokens j ++ .flowMappingEnd :: ts) :=
        List.append_assoc _ _ _
      rw [happend]
      exact hj.flowMembers_cons first k (by omega) rfl
    · have hlength : (memberTokens ((k, j) :: e' :: es)).length
          = 3 + ((flowTokens j).length + ((memberTokens (e' :: es)).length + 1)) := by
        change (keyTokens k ++ (flowTokens j ++ .flowEntry :: memberTokens (e' :: es))).length = _
        rw [List.length_append, List.length_append, List.length_cons]
        rfl
      obtain ⟨fuel, rfl⟩ := Nat.exists_eq_add_of_le' (by omega : 3 ≤ fuel)
      have happend : memberTokens ((k, j) :: e' :: es) ++ .flowMappingEnd :: ts = keyTokens k
          ++ (flowTokens j
            ++ (comma false ++ (memberTokens (e' :: es) ++ .flowMappingEnd :: ts))) := by
        change keyTokens k ++ (flowTokens j ++ .flowEntry :: memberTokens (e' :: es))
          ++ .flowMappingEnd :: ts = _
        rw [List.append_assoc, List.append_assoc]
        rfl
      rw [happend]
      exact hj.flowMembers_cons first k (by omega)
        (ih hes (List.cons_ne_nil e' es) false (by omega))

end Collections

/-- Every printed value parses, in three steps for each of its tokens. -/
theorem parses (j : Json) : Parses j := by
  induction j using Json.wordInduction with
  | word j hword =>
    intro handles fuel site ts a hfuel
    rw [flowTokens_of_isWord hword, List.length_singleton] at hfuel
    obtain ⟨fuel, rfl⟩ := Nat.exists_eq_add_of_le' (by omega : 2 ≤ fuel)
    rw [flowTokens_of_isWord hword, flowNode_of_isWord hword]
    exact node_scalar site j.print .plain
  | text s =>
    intro handles fuel site ts a hfuel
    obtain ⟨fuel, rfl⟩ := Nat.exists_eq_add_of_le' (Nat.le_trans (by decide : 2 ≤ 3) hfuel)
    exact node_scalar site s .quoted
  | array js ih =>
    intro handles fuel site ts a hfuel
    have hlength : (flowTokens (.array js)).length = (itemTokens js).length + 2 := by
      rw [flowTokens, List.length_cons, List.length_append, List.length_singleton]
    obtain ⟨fuel, rfl⟩ := Nat.exists_eq_add_of_le' (by omega : 2 ≤ fuel)
    rw [flowTokens, List.cons_append, List.append_assoc]
    refine node_sequence site ?_
    by_cases hne : js = []
    · obtain rfl := hne
      obtain ⟨fuel, rfl⟩ := Nat.exists_eq_add_one.mpr (by omega : 0 < fuel)
      rfl
    · exact flowEntries_items ih hne true (by omega)
  | object es ih =>
    intro handles fuel site ts a hfuel
    have hlength : (flowTokens (.object es)).length = (memberTokens es).length + 2 := by
      rw [flowTokens, List.length_cons, List.length_append, List.length_singleton]
    obtain ⟨fuel, rfl⟩ := Nat.exists_eq_add_of_le' (by omega : 2 ≤ fuel)
    rw [flowTokens, List.cons_append, List.append_assoc]
    refine node_mapping site ?_
    by_cases hne : es = []
    · obtain rfl := hne
      obtain ⟨fuel, rfl⟩ := Nat.exists_eq_add_one.mpr (by omega : 0 < fuel)
      rfl
    · exact flowMembers_members ih hne true (by omega)

/-! ## Whole texts -/

/-- The text of a printed object is well formed: it is one document, without anchors. -/
theorem parse_chars {es : List (String × Json)} (hes : IsInline (.object es)) :
    parse (Json.chars (.object es)) = some ⟨flowNode (.object es), .empty⟩ := by
  have hroot : root defaultHandles (flowTokens (.object es))
      = some (⟨flowNode (.object es), .empty⟩, []) := by
    have hnode := parses (.object es) defaultHandles (3 * (flowTokens (.object es)).length + 3)
      .block [] .empty (Nat.le_add_right _ _)
    rw [List.append_nil] at hnode
    rw [root, hnode]
    rfl
  have hfirst : firstDocument (flowTokens (.object es))
      = some (⟨flowNode (.object es), .empty⟩, []) := by
    change (if (flowTokens (.object es)).length = (flowTokens (.object es)).length then
      root defaultHandles (flowTokens (.object es)) else none) = _
    rw [if_pos rfl, hroot]
  rw [parse, tokens?_chars hes]
  change ((firstDocument (flowTokens (.object es))).bind fun g => _) = _
  rw [hfirst]
  rfl

end LoadTest.Yaml
