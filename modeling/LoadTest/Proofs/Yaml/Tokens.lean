/-
The tokens of printed values.

A printed value is followed from token to token: opening and closing brackets,
commas, keys with their colons, texts and words. From there on the lemmas go by
the shape of the value. The root is a collection that stands within no brackets;
everything else stands within some, and there a key is known by its colon
because it is near enough.
-/
import LoadTest.Proofs.Yaml.Layout

set_option autoImplicit false

namespace LoadTest.Yaml

/-! ## What is expected -/

/-- A key with its colon. -/
def keyTokens (k : String) : List Token := [.key, .scalar k .quoted, .value]

mutual
/-- The tokens of a printed value. -/
def flowTokens : Json → List Token
  | .text s => [.scalar s .quoted]
  | .array js => .flowSequenceStart :: (itemTokens js ++ [.flowSequenceEnd])
  | .object es => .flowMappingStart :: (memberTokens es ++ [.flowMappingEnd])
  | j => [.scalar j.print .plain]

/-- Elements with commas between them. -/
def itemTokens : List Json → List Token
  | [] => []
  | [j] => flowTokens j
  | j :: js => flowTokens j ++ .flowEntry :: itemTokens js

/-- Members with commas between them. -/
def memberTokens : List (String × Json) → List Token
  | [] => []
  | [(k, j)] => keyTokens k ++ flowTokens j
  | (k, j) :: es => keyTokens k ++ (flowTokens j ++ .flowEntry :: memberTokens es)
end

/-- A word is one token, a scalar without quotation marks. -/
theorem flowTokens_of_isWord {j : Json} (hj : j.isWord = true) :
    flowTokens j = [.scalar j.print .plain] := by
  obtain rfl | ⟨b, rfl⟩ | ⟨n, rfl⟩ := Json.eq_of_isWord hj
  · rfl
  · rfl
  · rfl

/-- Texts must have no characters behind the tilde. -/
def AsciiLeaf : Json → Prop
  | .text s => IsAscii s
  | _ => True

/-- Keys must moreover be near enough to their colons. -/
def AsciiKey (k : String) : Prop := IsAscii k ∧ octets (Json.quote k) ≤ Layout.reach

instance (k : String) : Decidable (AsciiKey k) :=
  inferInstanceAs (Decidable (IsAscii k ∧ octets (Json.quote k) ≤ Layout.reach))

/-- A value that YAML reads as JSON prints it. -/
def IsInline : Json → Prop := Json.Every AsciiLeaf AsciiKey

/-- A value on a single line is printed in characters from the blank to the tilde. -/
theorem isPrinted_of_mem_chars {j : Json} (hj : IsInline j) :
    ∀ c ∈ Json.chars j, IsPrinted c := by
  induction j using Json.wordInduction with
  | word j hword => exact fun c hc => isPrinted_of_isWord (isWord_of_mem_chars hword hc)
  | text s => exact fun c => isPrinted_of_mem_quote hj
  | array js ih =>
    have hitems : ∀ c ∈ Json.charsItems js, IsPrinted c := by
      replace hj := Json.every_array.mp hj
      induction js with
      | nil => exact fun c hc => absurd hc List.not_mem_nil
      | cons j js ihs =>
        have hfirst := ih j List.mem_cons_self (hj j List.mem_cons_self)
        have hrest := ihs (fun j' h => ih j' (List.mem_cons_of_mem _ h))
          fun j' h => hj j' (List.mem_cons_of_mem _ h)
        rcases js with _ | ⟨j', js⟩
        · exact hfirst
        · exact List.forall_mem_append.mpr ⟨hfirst, List.forall_mem_cons.mpr ⟨by decide, hrest⟩⟩
    rw [Json.chars, List.forall_mem_cons, List.forall_mem_append, List.forall_mem_singleton]
    exact ⟨by decide, hitems, by decide⟩
  | object es ih =>
    have hmembers : ∀ c ∈ Json.charsMembers es, IsPrinted c := by
      replace hj := Json.every_object.mp hj
      induction es with
      | nil => exact fun c hc => absurd hc List.not_mem_nil
      | cons e es ihs =>
        have hkey : ∀ c ∈ Json.quote e.1, IsPrinted c :=
          fun c => isPrinted_of_mem_quote (hj e List.mem_cons_self).1.1
        have hvalue := ih e List.mem_cons_self (hj e List.mem_cons_self).2
        have hrest := ihs (fun e' h => ih e' (List.mem_cons_of_mem _ h))
          fun e' h => hj e' (List.mem_cons_of_mem _ h)
        have hcolon : IsPrinted ':' := by decide
        rcases es with _ | ⟨e', es⟩
        · exact List.forall_mem_append.mpr ⟨hkey, List.forall_mem_cons.mpr ⟨hcolon, hvalue⟩⟩
        · exact List.forall_mem_append.mpr ⟨hkey, List.forall_mem_cons.mpr ⟨hcolon,
            List.forall_mem_append.mpr ⟨hvalue, List.forall_mem_cons.mpr ⟨by decide, hrest⟩⟩⟩⟩
    rw [Json.chars, List.forall_mem_cons, List.forall_mem_append, List.forall_mem_singleton]
    exact ⟨by decide, hmembers, by decide⟩

namespace Layout

/-! ## Single tokens -/

section Tokens

variable {l l' : Layout} {d : Nat} {a : Char} {t : Token} {cs rest : List Char}

/-- A token that is found with any number of steps left. -/
theorem Steady.reaches_of_token {P : Layout → Prop} (h : l.Steady)
    (hrest : l.cursor.rest = a :: cs) (ha : IsVisible a)
    (htoken : ∀ fuel, l.fresh.token? fuel a cs = some l') (htokens : l'.tokens = t :: l.tokens)
    (hbehind : l'.cursor.rest = cs) (hP : P l') : l.Reaches [t] P :=
  ⟨l', h.leads hrest ha (fun fuel _ => htoken (fuel + 1)) (hbehind ▸ Nat.le_refl _), htokens, hP⟩

/-- An opening bracket may be the first token of all. -/
theorem Steady.reaches_open (h : l.Steady) (hrest : l.cursor.rest = a :: cs)
    (ha : a = '[' ∧ t = .flowSequenceStart ∨ a = '{' ∧ t = .flowMappingStart)
    (hmarker : l.cursor.atMarker = false) :
    l.Reaches [t] fun l' => At (l.outer.length + 1) cs l' ∧ l'.keyAllowed = true := by
  obtain ⟨k, hk, hrequired⟩ := h.fresh.exists_propose?
  let m : Layout := { l.fresh with candidate := k }
  let l' : Layout := (m.enterFlow.allowKey true).mark t
  have htoken (fuel : Nat) : l.fresh.token? fuel a cs = some l' := by
    have hopen : l.fresh.token? fuel a cs = l.fresh.openFlow? t := by
      have hsame : l.fresh.cursor.atMarker = false := hmarker
      rcases ha with ⟨rfl, rfl⟩ | ⟨rfl, rfl⟩
      · simp [token?, hsame]
      · simp [token?, hsame]
    rw [hopen, openFlow?, hk]
    rfl
  have hl' : At (l.outer.length + 1) cs l' := by
    have hcs : l.cursor.rest.drop 1 = cs := congrArg (List.drop 1) hrest
    exact ⟨⟨h.columns, h.fresh.counted.emit t, rfl,
      List.forall_mem_cons.mpr ⟨hrequired, h.fresh.outer⟩⟩,
      congrArg (· + 1) (List.length_map _), Nat.succ_pos _, hcs⟩
  have hvisible : IsVisible a := by
    rcases ha with ⟨rfl, -⟩ | ⟨rfl, -⟩
    · decide
    · decide
  exact h.reaches_of_token hrest hvisible htoken rfl hl'.rest ⟨hl', rfl⟩

/-- A closing bracket or brace ends the innermost collection. -/
theorem At.reaches_close (h : At (d + 1) (a :: cs) l)
    (ha : a = ']' ∧ t = .flowSequenceEnd ∨ a = '}' ∧ t = .flowMappingEnd) :
    l.Reaches [t] (At d cs) := by
  let m : Layout := { l.fresh with candidate := none }
  let l' : Layout := (m.leaveFlow.allowKey false).mark t
  have htoken (fuel : Nat) : l.fresh.token? fuel a cs = some l' := by
    have hclose : l.fresh.token? fuel a cs = l.fresh.closeFlow? t := by
      have hmarker := Cursor.atMarker_of_pos h.fresh.column
      rcases ha with ⟨rfl, rfl⟩ | ⟨rfl, rfl⟩
      · simp [token?, hmarker]
      · simp [token?, hmarker]
    rw [hclose, closeFlow?, h.fresh.giveUp?_eq]
    rfl
  have hm : At d ([a] ++ cs) m.leaveFlow := (h.fresh.withCandidate rfl).leaveFlow
  have hl' : At d cs l' := hm.behind t false
  have hvisible : IsVisible a := by
    rcases ha with ⟨rfl, -⟩ | ⟨rfl, -⟩
    · decide
    · decide
  have htokens : l'.tokens = t :: l.tokens := congrArg (t :: ·) m.tokens_leaveFlow
  exact h.reaches_of_token h.rest hvisible htoken htokens hl'.rest hl'

/-- A comma separates entries, and a key may begin behind it. -/
theorem At.reaches_comma (h : At (d + 1) (',' :: cs) l) :
    l.Reaches [.flowEntry] fun l' => At (d + 1) cs l' ∧ l'.keyAllowed = true := by
  let m : Layout := { l.fresh with candidate := none }
  let l' : Layout := (m.allowKey true).mark .flowEntry
  have htoken (fuel : Nat) : l.fresh.token? fuel ',' cs = some l' := by
    have hcomma : l.fresh.token? fuel ',' cs = l.fresh.flowEntry? := by
      simp [token?, Cursor.atMarker_of_pos h.fresh.column]
    rw [hcomma, flowEntry?, h.fresh.giveUp?_eq]
    rfl
  have hm : At (d + 1) ([','] ++ cs) m := h.fresh.withCandidate rfl
  have hl' : At (d + 1) cs l' := hm.behind .flowEntry true
  exact h.reaches_of_token h.rest (by decide) htoken rfl hl'.rest ⟨hl', rfl⟩

/-- A text, with what is noted as a candidate in front of it. -/
theorem At.leads_quote {s : String} (h : At d (Json.quote s ++ rest) l) (hs : IsAscii s)
    {k : Option Candidate} (hpropose : l.fresh.propose? = some { l.fresh with candidate := k })
    (hk : k.any (·.required) = false) :
    ∃ l', Leads l l' ∧ At d rest l' ∧ l'.tokens = .scalar s .quoted :: l.tokens
      ∧ l'.candidate = k ∧ l'.count = l.count + 1
      ∧ l'.cursor = l.cursor.skip (Json.quote s).length := by
  let m : Layout := { l.fresh with candidate := k }
  let l' : Layout := ((m.allowKey false).emit (.scalar s .quoted)).moveTo
    (m.cursor.skip (Json.quote s).length)
  have hm : At d (Json.quote s ++ rest) m := h.fresh.withCandidate hk
  have hl' : At d rest l' := hm.behind (.scalar s .quoted) false
  obtain ⟨cs, hcs⟩ : ∃ cs, Json.quote s ++ rest = '"' :: cs := ⟨_, rfl⟩
  have htoken (fuel : Nat) (hfuel : cs.length < fuel) :
      l.fresh.token? (fuel + 1) '"' cs = some l' := by
    have hquoted : l.fresh.token? (fuel + 1) '"' cs = l.fresh.quoted? true (fuel + 1) := by
      simp [token?, Cursor.atMarker_of_pos h.fresh.column]
    have hlength : (Json.quote s).length ≤ fuel + 1 := by
      have hcount := congrArg List.length hcs
      rw [List.length_append, List.length_cons] at hcount
      omega
    rw [hquoted, quoted?, hpropose]
    change ((quotedScalar true (fuel + 1) l.cursor).bind fun r => _) = _
    rw [quotedScalar_quote hs h.rest hlength]
    rfl
  have hless : l'.cursor.rest.length ≤ cs.length := by
    have hcount := congrArg List.length hcs
    have hpos : 0 < (Json.quote s).length := Nat.succ_pos _
    rw [List.length_append, List.length_cons] at hcount
    rw [hl'.rest]
    omega
  exact ⟨l', h.leads (h.rest.trans hcs) (by decide) htoken hless, hl', rfl, rfl, rfl, rfl⟩

/-- A printed text is one token, a scalar in quotation marks. -/
theorem At.reaches_text {s : String} (h : At d (Json.quote s ++ rest) l) (hs : IsAscii s) :
    l.Reaches [.scalar s .quoted] (At d rest) := by
  obtain ⟨k, hpropose, hk⟩ := h.fresh.exists_propose?
  obtain ⟨l', hleads, hl', htokens, -⟩ := h.leads_quote hs hpropose hk
  exact ⟨l', hleads, htokens, hl'⟩

/-- A text becomes a key by the colon behind it, if the colon is near enough. -/
theorem At.reaches_key {k : String} (h : At (d + 1) (Json.quote k ++ ':' :: cs) l)
    (hallowed : l.keyAllowed = true) (hk : AsciiKey k) :
    l.Reaches (keyTokens k) (At (d + 1) cs) := by
  obtain ⟨hascii, hnear⟩ := hk
  have hpropose := h.fresh.propose?_of_allowed hallowed
  obtain ⟨m, hm, hcolon, htokens, hcandidate, hcount, hcursor⟩ := h.leads_quote hascii hpropose rfl
  -- the candidate is still there when the colon is reached
  have hreach : m.fresh.candidate = m.candidate := by
    change inReach m.cursor m.candidate = _
    rw [hcandidate]
    refine inReach_of_near ?_ ?_
    · rw [hcursor]
      rfl
    · rw [hcursor]
      change l.cursor.index + octets (l.cursor.rest.take (Json.quote k).length)
        ≤ l.cursor.index + reach
      rw [h.rest, List.take_left]
      omega
  let noted : Candidate := ⟨l.count, l.cursor.index, l.cursor.line, l.cursor.column, false⟩
  let key : Layout := emitBefore noted [.key] { m.fresh with candidate := none }
  let l' : Layout := (key.allowKey false).mark .value
  have hkey : At (d + 1) ([':'] ++ cs) key :=
    ⟨⟨hcolon.columns, hcolon.fresh.counted.emitBefore _ _, rfl, hcolon.fresh.outer⟩,
      hcolon.fresh.depth, hcolon.column, hcolon.rest⟩
  have hl' : At (d + 1) cs l' := hkey.behind .value false
  have htoken (fuel : Nat) : m.fresh.token? fuel ':' cs = some l' := by
    have hvalue : m.fresh.token? fuel ':' cs = m.fresh.valueMark? := by
      simp [token?, Cursor.atMarker_of_pos hcolon.fresh.column, hcolon.fresh.inFlow]
    rw [hvalue, valueMark?, hreach, hcandidate]
    simp only [makeKey, hcolon.fresh.inFlow]
    rfl
  have hinsert : key.tokens = [.scalar k .quoted, .key] ++ l.tokens := by
    change insertBefore (m.count - l.count) [.key] m.tokens = _
    rw [hcount, htokens, Nat.add_sub_cancel_left]
    rfl
  refine ⟨l', hm.trans (hcolon.leads hcolon.rest (by decide) (fun fuel _ => htoken _)
    (hl'.rest ▸ Nat.le_refl _)), ?_, hl'⟩
  exact congrArg (Token.value :: ·) hinsert

/-- A word begins with a character of a name, and a minus sign is not all of it. -/
theorem chars_of_isWord {j : Json} (hj : j.isWord = true) :
    ∃ a w, Json.chars j = a :: w ∧ (a = '-' → w ≠ []) := by
  obtain rfl | ⟨b, rfl⟩ | ⟨n, rfl⟩ := Json.eq_of_isWord hj
  · exact ⟨_, _, rfl, by decide⟩
  · cases b with
    | false => exact ⟨_, _, rfl, by decide⟩
    | true => exact ⟨_, _, rfl, by decide⟩
  · rw [Json.chars, Decimal.intDigits]
    by_cases hn : n < 0
    · rw [if_pos hn]
      exact ⟨_, _, rfl, fun _ => Decimal.digits_ne_nil _⟩
    · obtain ⟨a, w, hw⟩ := List.exists_cons_of_ne_nil (Decimal.digits_ne_nil n.natAbs)
      have hdigit : Decimal.isDigit a = true :=
        Decimal.isDigit_of_mem_digits (hw ▸ List.mem_cons_self)
      rw [if_neg hn]
      refine ⟨a, w, hw, ?_⟩
      rintro rfl
      exact absurd hdigit (by decide)

/-- What begins with a character of a name is an unquoted scalar, unless it is a
dash that stands alone. -/
theorem token?_of_isWord (hmarker : l.cursor.atMarker = false) (ha : isWord a = true)
    (hdash : a = '-' → isGap cs = false) (fuel : Nat) : l.token? fuel a cs = l.plain? fuel := by
  let indicators : List Char := ['%', '[', '{', ']', '}', ',', '?', ':', '*', '&', '!', '|', '>',
    '\'', '"', '#', '@', '\x60']
  have hindicators : indicators.all (!isWord ·) = true := by decide
  have hother : ∀ b ∈ indicators, a ≠ b := fun b hb =>
    ne_of_isWord ha ((Bool.not_eq_true' _).mp (List.all_eq_true.mp hindicators b hb))
  simp only [indicators, List.forall_mem_cons] at hother
  have hstarts : startsPlain l.inFlow a cs = true := by
    by_cases hminus : a = '-'
    · obtain rfl := hminus
      have hblank : cs.head?.any isBlank = false := by
        have hcs := hdash rfl
        cases cs with
        | nil => rfl
        | cons b cs => exact (Bool.or_eq_false_iff.mp hcs).1
      simp [startsPlain, hblank]
    · have hindicator : isIndicator a = false := by simp [isIndicator, hother, hminus]
      have hvisible : isGap [a] = false := by
        rw [isGap, isBlank_of_isWord ha, isBreak_of_isPrinted (isPrinted_of_isWord ha)]
        rfl
      rw [startsPlain, hindicator, hvisible]
      rfl
  simp +contextual [token?, hmarker, hother, hstarts, hdash]

/-- A printed word is one token, if what follows closes or separates it. -/
theorem At.reaches_word {j : Json} (h : At (d + 1) (Json.chars j ++ rest) l) (hj : j.isWord = true)
    (hcloses : Closes rest) : l.Reaches [.scalar j.print .plain] (At (d + 1) rest) := by
  obtain ⟨k, hpropose, hk⟩ := h.fresh.exists_propose?
  obtain ⟨a, w, hw, hdash⟩ := chars_of_isWord hj
  have hword : ∀ c ∈ a :: w, isWord c = true := fun c hc => isWord_of_mem_chars hj (hw ▸ hc)
  obtain ⟨ha, hbehind⟩ := List.forall_mem_cons.mp hword
  have hgap (hminus : a = '-') : isGap (w ++ rest) = false := by
    obtain ⟨b, w', rfl⟩ := List.exists_cons_of_ne_nil (hdash hminus)
    have hb : isWord b = true := hbehind b List.mem_cons_self
    rw [List.cons_append, isGap, isBlank_of_isWord hb,
      isBreak_of_isPrinted (isPrinted_of_isWord hb)]
    rfl
  let m : Layout := { l.fresh with candidate := k }
  let l' : Layout := ((m.allowKey false).emit (.scalar j.print .plain)).moveTo
    (m.cursor.skip (Json.chars j).length)
  have hm : At (d + 1) (Json.chars j ++ rest) m := h.fresh.withCandidate hk
  have hl' : At (d + 1) rest l' := hm.behind (.scalar j.print .plain) false
  have hrest : l.cursor.rest = a :: (w ++ rest) := by rw [h.rest, hw, List.cons_append]
  have htoken (fuel : Nat) (hfuel : (w ++ rest).length < fuel) :
      l.fresh.token? (fuel + 1) a (w ++ rest) = some l' := by
    have hlength : (Json.chars j).length < fuel + 1 := by
      rw [List.length_append] at hfuel
      rw [hw, List.length_cons]
      omega
    rw [token?_of_isWord (Cursor.atMarker_of_pos h.fresh.column) ha hgap, plain?, hpropose]
    change ((plainScalar l.fresh.inFlow _ (fuel + 1) l.cursor).bind fun r => _) = _
    rw [h.fresh.inFlow, plainScalar_word hj h.rest h.column hcloses hlength]
    rfl
  have hvisible : IsVisible a :=
    ⟨isPrinted_of_isWord ha, ne_of_isWord ha (by decide), ne_of_isWord ha (by decide)⟩
  have hless : l'.cursor.rest.length ≤ (w ++ rest).length := by
    rw [hl'.rest, List.length_append]
    omega
  exact ⟨l', h.leads hrest hvisible htoken hless, rfl, hl'⟩

end Tokens

/-! ## Values -/

/-- The tokens of a value are found wherever it stands within brackets. -/
def Cuts (j : Json) : Prop :=
  ∀ l d rest, At (d + 1) (Json.chars j ++ rest) l → Closes rest →
    l.Reaches (flowTokens j) (At (d + 1) rest)

section Collections

variable {l : Layout} {d : Nat} {rest : List Char}

/-- Elements are found one by one, with commas between them. -/
theorem At.reaches_items {js : List Json} (hjs : ∀ j ∈ js, Cuts j) (hne : js ≠ [])
    (h : At (d + 1) (Json.charsItems js ++ ']' :: rest) l) :
    l.Reaches (itemTokens js) (At (d + 1) (']' :: rest)) := by
  induction js generalizing l with
  | nil => exact absurd rfl hne
  | cons j js ih =>
    obtain ⟨hj, hjs⟩ := List.forall_mem_cons.mp hjs
    rcases js with _ | ⟨j', js⟩
    · exact hj l d _ h (closes_cons (.inr (.inl rfl)) rest)
    · have hsplit : Json.charsItems (j :: j' :: js) ++ ']' :: rest
          = Json.chars j ++ ',' :: (Json.charsItems (j' :: js) ++ ']' :: rest) :=
        List.append_assoc _ _ _
      rw [hsplit] at h
      -- the element, the comma, and the elements behind it
      refine (hj l d _ h (closes_cons (.inl rfl) _)).trans fun m hm => ?_
      refine hm.reaches_comma.trans fun m hm => ?_
      exact ih hjs (List.cons_ne_nil _ _) hm.1

/-- Members are found one by one, each with its key, with commas between them. -/
theorem At.reaches_members {es : List (String × Json)} (hes : ∀ e ∈ es, AsciiKey e.1 ∧ Cuts e.2)
    (hne : es ≠ []) (hallowed : l.keyAllowed = true)
    (h : At (d + 1) (Json.charsMembers es ++ '}' :: rest) l) :
    l.Reaches (memberTokens es) (At (d + 1) ('}' :: rest)) := by
  induction es generalizing l with
  | nil => exact absurd rfl hne
  | cons e es ih =>
    obtain ⟨⟨hk, hj⟩, hes⟩ := List.forall_mem_cons.mp hes
    rcases es with _ | ⟨e', es⟩
    · rw [Json.charsMembers, List.append_assoc] at h
      refine (h.reaches_key hallowed hk).trans fun m hm => ?_
      exact hj m d _ hm (closes_cons (.inr (.inr rfl)) rest)
    · have hsplit : Json.charsMembers (e :: e' :: es) ++ '}' :: rest = Json.quote e.1
          ++ ':' :: (Json.chars e.2 ++ ',' :: (Json.charsMembers (e' :: es) ++ '}' :: rest)) := by
        change (Json.quote e.1 ++ ':' :: (Json.chars e.2 ++ ',' :: Json.charsMembers (e' :: es)))
          ++ '}' :: rest = _
        rw [List.append_assoc, List.cons_append, List.append_assoc]
        rfl
      rw [hsplit] at h
      refine (h.reaches_key hallowed hk).trans fun m hm => ?_
      refine (hj m d _ hm (closes_cons (.inl rfl) _)).trans fun m hm => ?_
      refine hm.reaches_comma.trans fun m hm => ?_
      exact ih hes (List.cons_ne_nil _ _) hm.2 hm.1

/-- A printed array is found from its opening to its closing bracket. -/
theorem Steady.reaches_array {js : List Json} (hjs : ∀ j ∈ js, Cuts j) (h : l.Steady)
    (hmarker : l.cursor.atMarker = false) (hrest : l.cursor.rest = Json.chars (.array js) ++ rest) :
    l.Reaches (flowTokens (.array js)) (At l.outer.length rest) := by
  rw [Json.chars, List.cons_append, List.append_assoc] at hrest
  refine (h.reaches_open hrest (.inl ⟨rfl, rfl⟩) hmarker).trans fun m hm => ?_
  by_cases hne : js = []
  · obtain rfl := hne
    exact hm.1.reaches_close (.inl ⟨rfl, rfl⟩)
  · exact (hm.1.reaches_items hjs hne).trans fun m hm => hm.reaches_close (.inl ⟨rfl, rfl⟩)

/-- A printed object is found from its opening to its closing brace. -/
theorem Steady.reaches_object {es : List (String × Json)}
    (hes : ∀ e ∈ es, AsciiKey e.1 ∧ Cuts e.2) (h : l.Steady) (hmarker : l.cursor.atMarker = false)
    (hrest : l.cursor.rest = Json.chars (.object es) ++ rest) :
    l.Reaches (flowTokens (.object es)) (At l.outer.length rest) := by
  rw [Json.chars, List.cons_append, List.append_assoc] at hrest
  refine (h.reaches_open hrest (.inr ⟨rfl, rfl⟩) hmarker).trans fun m hm => ?_
  by_cases hne : es = []
  · obtain rfl := hne
    exact hm.1.reaches_close (.inr ⟨rfl, rfl⟩)
  · exact (hm.1.reaches_members hes hne hm.2).trans fun m hm => hm.reaches_close (.inr ⟨rfl, rfl⟩)

end Collections

/-- Within brackets every printed value is cut into its tokens. -/
theorem cuts (j : Json) (hj : IsInline j) : Cuts j := by
  induction j using Json.wordInduction with
  | word j hword =>
    intro l d rest h hcloses
    rw [flowTokens_of_isWord hword]
    exact h.reaches_word hword hcloses
  | text s => exact fun l d rest h _ => h.reaches_text hj
  | array js ih =>
    intro l d rest h _
    have hjs := Json.every_array.mp hj
    rw [← h.depth]
    exact h.toSteady.reaches_array (fun j hmem => ih j hmem (hjs j hmem))
      (Cursor.atMarker_of_pos h.column) h.rest
  | object es ih =>
    intro l d rest h _
    have hes := Json.every_object.mp hj
    rw [← h.depth]
    exact h.toSteady.reaches_object (fun e hmem => ⟨(hes e hmem).1, ih e hmem (hes e hmem).2⟩)
      (Cursor.atMarker_of_pos h.column) h.rest

/-- At the end of the text the tokens are those found so far. -/
theorem At.tokens?_eq {l : Layout} (h : At 0 [] l) (fuel : Nat) :
    tokens? (fuel + 1) l = some l.tokens.reverse := by
  have hskip : skipGap (fuel + 1) l = l := by
    have hmark : skipMark l.cursor = l.cursor := by
      rw [skipMark, h.rest, List.head?_nil, Option.any_none, Bool.and_false,
        if_neg Bool.false_ne_true]
    have hwhile : l.cursor.skipWhile l.isPassed = l.cursor := by
      rw [Cursor.skipWhile, h.rest]
      rfl
    have hcomment : l.cursor.skipComment = l.cursor := by
      rw [Cursor.skipComment, h.rest]
      rfl
    have hline : l.cursor.nextLine? = none := by
      rw [Cursor.nextLine?, h.rest]
    rw [skipGap, hmark, hwhile, hcomment, hline]
    rfl
  have hrest : l.fresh.cursor.rest = [] := h.rest
  rw [tokens?, hskip, h.expireAll?_eq, Option.bind_eq_bind, Option.bind_some]
  simp only [h.fresh.closeBlocks_eq, hrest, h.fresh.closeAllBlocks_eq, h.fresh.giveUp?_eq]
  rfl

end Layout

/-- A printed object is cut into its tokens. -/
theorem tokens?_chars {es : List (String × Json)} (hes : IsInline (.object es)) :
    tokens? (Json.chars (.object es)) = some (flowTokens (.object es)) := by
  have hreadable : (Json.chars (.object es)).all isReadable = true :=
    List.all_eq_true.mpr fun c hc => isReadable_of_isPrinted (isPrinted_of_mem_chars hes c hc)
  let l : Layout := .start (Json.chars (.object es))
  have hsteady : l.Steady := ⟨rfl, rfl, rfl, fun _ hk => absurd hk List.not_mem_nil⟩
  have hmembers := Json.every_object.mp hes
  -- only a brace stands in the first column, so there is no marker
  obtain ⟨l', hleads, htokens, hl'⟩ := hsteady.reaches_object
    (fun e he => ⟨(hmembers e he).1, Layout.cuts e.2 (hmembers e he).2⟩) rfl
    (List.append_nil _).symm
  obtain ⟨fuel, hfuel, heq⟩ := hleads _ (Nat.lt_succ_self _)
  obtain ⟨fuel, rfl⟩ := Nat.exists_eq_add_one.mpr (Nat.zero_lt_of_lt hfuel)
  rw [tokens?, if_pos hreadable]
  refine heq.trans ((hl'.tokens?_eq fuel).trans ?_)
  rw [htokens]
  exact congrArg some ((congrArg List.reverse (List.append_nil _)).trans (List.reverse_reverse _))

end LoadTest.Yaml
