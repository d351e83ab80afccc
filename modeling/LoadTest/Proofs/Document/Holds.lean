/-
Documents that hold a printed value.

The same value makes different documents: a format may type its scalars at once
or leave them to the reader, and what has been taken in as a whole is typed in
any case. `Document.Holds` says of a document and a value that the document is
what the text of the value may have become. A reader is judged by what it gets
out of every such document (`Document.Reads`), so one round trip serves all
formats, and it serves the parts that are read from settled documents as well.

The lemmas follow the readers: one for each way in which a reader is put
together from others.
-/
import LoadTest.Document.Reader
import LoadTest.Proofs.Document.Word
import LoadTest.Proofs.Json.Content
import LoadTest.Proofs.Json.Reading

set_option autoImplicit false

namespace LoadTest

namespace Json

/-! ## What is in a value -/

/-- Whether a value is printed as a word, without quotation marks or brackets. -/
def isWord : Json → Bool
  | null => true
  | bool _ => true
  | integer _ => true
  | _ => false

/-- A word is null, a truth value or an integer. -/
theorem eq_of_isWord {j : Json} (hj : j.isWord = true) :
    j = null ∨ (∃ b, j = bool b) ∨ ∃ n, j = integer n := by
  rcases j with _ | b | n | s | js | es
  · exact .inl rfl
  · exact .inr (.inl ⟨b, rfl⟩)
  · exact .inr (.inr ⟨n, rfl⟩)
  · cases hj
  · cases hj
  · cases hj

/-- Induction over values in which all words are treated alike. -/
theorem wordInduction {motive : Json → Prop} (word : ∀ j, j.isWord = true → motive j)
    (text : ∀ s, motive (.text s))
    (array : ∀ items, (∀ j ∈ items, motive j) → motive (.array items))
    (object : ∀ members, (∀ m ∈ members, motive m.2) → motive (.object members)) (j : Json) :
    motive j :=
  induction (word null rfl) (fun b => word (bool b) rfl) (fun n => word (integer n) rfl) text
    array object j

mutual
/-- Every word and text in the value passes one test, and every key another. -/
def Every (leaf : Json → Prop) (key : String → Prop) : Json → Prop
  | array items => EveryItem leaf key items
  | object members => EveryMember leaf key members
  | j => leaf j

/-- The same for elements. -/
def EveryItem (leaf : Json → Prop) (key : String → Prop) : List Json → Prop
  | [] => True
  | j :: js => Every leaf key j ∧ EveryItem leaf key js

/-- The same for members. -/
def EveryMember (leaf : Json → Prop) (key : String → Prop) : List (String × Json) → Prop
  | [] => True
  | (k, j) :: ms => (key k ∧ Every leaf key j) ∧ EveryMember leaf key ms
end

section Every

variable {leaf : Json → Prop} {key : String → Prop}

theorem every_array {js : List Json} : Every leaf key (.array js) ↔ ∀ j ∈ js, Every leaf key j := by
  rw [Every]
  induction js with
  | nil => simp [EveryItem]
  | cons j js ih => rw [EveryItem, ih, List.forall_mem_cons]

theorem every_object {ms : List (String × Json)} :
    Every leaf key (.object ms) ↔ ∀ m ∈ ms, key m.1 ∧ Every leaf key m.2 := by
  rw [Every]
  induction ms with
  | nil => simp [EveryMember]
  | cons m ms ih => rw [EveryMember, ih, List.forall_mem_cons]

end Every

/-- Integers must take 64 bits; all other words and texts are admitted. -/
def Fits : Json → Prop
  | integer n => FitsWord n
  | _ => True

/-- All integers in the value take 64 bits. -/
def AllFit : Json → Prop := Every Fits fun _ => True

/-- A printed text of the value can be taken in at so many levels: no integer takes
more than 64 bits, and nothing nests deeper. -/
def Moderate (levels : Nat) (j : Json) : Prop := j.AllFit ∧ j.nesting ≤ levels

/-- An array takes one level more than its elements. -/
theorem moderate_array {n : Nat} {js : List Json} :
    Moderate (n + 1) (.array js) ↔ ∀ j ∈ js, Moderate n j := by
  rw [Moderate, AllFit, every_array, nesting_array_le]
  exact forall₂_and.symm

/-- An object takes one level more than the values of its members. -/
theorem moderate_object {n : Nat} {ms : List (String × Json)} :
    Moderate (n + 1) (.object ms) ↔ ∀ m ∈ ms, Moderate n m.2 := by
  rw [Moderate, AllFit, every_object, nesting_object_le, ← forall₂_and]
  simp only [true_and]
  rfl

/-- What can be taken in at some levels can be taken in at more of them. -/
theorem Moderate.mono {m n : Nat} {j : Json} (h : Moderate m j) (hmn : m ≤ n) : Moderate n j :=
  ⟨h.1, Nat.le_trans h.2 hmn⟩

end Json

namespace Document

/-! ## Holding -/

mutual
/-- The document is what the text of the value may have become. -/
inductive Holds : Document → Json → Prop
  | null : Holds .null .null
  | bool (b : Bool) : Holds (.bool b) (.bool b)
  | integer (n : Int) : Holds (.integer n) (.integer n)
  /-- A word that is still to be typed. -/
  | plain {j : Json} (h : j.isWord = true) : Holds (.plain j.print) j
  | text (s : String) : Holds (.text s) (.text s)
  | sequence {ds : List Document} {js : List Json} (h : HoldsItems ds js) :
      Holds (.sequence ds true) (.array js)
  | map {ms : List (Document × Document)} {es : List (String × Json)} (h : HoldsMembers ms es) :
      Holds (.map ms true) (.object es)

/-- Elements hold values one by one. -/
inductive HoldsItems : List Document → List Json → Prop
  | nil : HoldsItems [] []
  | cons {d : Document} {j : Json} {ds : List Document} {js : List Json} (h : Holds d j)
      (hs : HoldsItems ds js) : HoldsItems (d :: ds) (j :: js)

/-- Members hold values one by one, each under its key. -/
inductive HoldsMembers : List (Document × Document) → List (String × Json) → Prop
  | nil : HoldsMembers [] []
  | cons {k : String} {d : Document} {j : Json} {ms : List (Document × Document)}
      {es : List (String × Json)} (h : Holds d j) (hs : HoldsMembers ms es) :
      HoldsMembers ((.text k, d) :: ms) ((k, j) :: es)
end

/-- The content of a value holds the value. -/
theorem holds_content (j : Json) : Holds j.content.document j := by
  induction j with
  | null => exact .null
  | bool b => exact .bool b
  | integer n => exact .integer n
  | text s => exact .text s
  | array js ih =>
    refine .sequence ?_
    induction js with
    | nil => exact .nil
    | cons j js ihs =>
      exact .cons (ih j List.mem_cons_self) (ihs fun k hk => ih k (List.mem_cons_of_mem _ hk))
  | object es ih =>
    refine .map ?_
    induction es with
    | nil => exact .nil
    | cons e es ihs =>
      exact .cons (ih e List.mem_cons_self) (ihs fun m hm => ih m (List.mem_cons_of_mem _ hm))

/-- The members of a printed object hold its keys and values, in their order. -/
theorem holdsMembers_content (es : List (String × Json)) :
    HoldsMembers (Json.Content.memberDocuments (Json.contentMembers es)) es := by
  have hobject : Holds (.map (Json.Content.memberDocuments (Json.contentMembers es)) true)
      (.object es) := holds_content (.object es)
  cases hobject with
  | map h => exact h

/-- A printed JSON text is parsed into the content of its value, if it does not
nest too deeply. -/
theorem document_eq_content (j : Json) (depth : Nat) (hj : j.AllFit)
    (hdepth : depth + j.nesting ≤ Json.maxDepth) :
    Json.document depth j = j.content.document := by
  induction j generalizing depth with
  | null => rfl
  | bool b => rfl
  | integer n => exact Json.toDocument_numeral hj
  | text s => rfl
  | array js ih =>
    rw [Json.nesting] at hdepth
    have hlt : depth < Json.maxDepth := by omega
    have hitems : Json.documents (depth + 1) js
        = Json.Content.documents (Json.contentItems js) := by
      -- every element stands one level deeper
      replace hj := Json.every_array.mp hj
      clear hlt
      induction js with
      | nil => rfl
      | cons j js ihs =>
        rw [Json.nestingItems] at hdepth
        rw [List.forall_mem_cons] at ih hj
        rw [Json.documents, Json.contentItems, Json.Content.documents,
          ih.1 (depth + 1) hj.1 (by omega), ihs ih.2 (by omega) hj.2]
    rw [Json.document, Json.atDepth, if_pos hlt, hitems]
    rfl
  | object es ih =>
    rw [Json.nesting] at hdepth
    have hlt : depth < Json.maxDepth := by omega
    have hmembers : Json.memberDocuments (depth + 1) es
        = Json.Content.memberDocuments (Json.contentMembers es) := by
      replace hj := Json.every_object.mp hj
      clear hlt
      induction es with
      | nil => rfl
      | cons e es ihs =>
        rw [Json.nestingMembers] at hdepth
        rw [List.forall_mem_cons] at ih hj
        rw [Json.memberDocuments, Json.contentMembers, Json.Content.memberDocuments,
          ih.1 (depth + 1) hj.1.2 (by omega), ihs ih.2 (by omega) hj.2]
    rw [Json.document, Json.atDepth, if_pos hlt, hmembers]
    rfl

/-- A printed text denotes the value that it was printed from. -/
theorem denotes_print {j : Json} (hj : j.AllFit) (hdepth : j.nesting ≤ Json.maxDepth) :
    Json.Denotes j.print j.content := by
  rw [Json.Denotes, Json.parse_print, document_eq_content j 0 hj (by omega)]

/-! ## Taking in as a whole -/

/-- A word is typed as what it was printed from. -/
theorem settle_plain {j : Json} (hword : j.isWord = true) (hj : j.AllFit) :
    settle (.plain j.print) = .ok j.content.document := by
  obtain rfl | ⟨b, rfl⟩ | ⟨n, rfl⟩ := Json.eq_of_isWord hword
  · rfl
  · cases b with
    | false => rfl
    | true => rfl
  · have hprint : (Json.integer n).print = String.ofList (Decimal.intDigits n) := rfl
    rw [settle, hprint, ofPlain, Plain.resolve_intDigits hj]
    rfl

/-- Whatever holds a value is taken in as the content of the value. -/
theorem settle_of_holds {d : Document} {j : Json} (hd : Holds d j) (hj : j.AllFit) :
    settle d = .ok j.content.document := by
  induction j using Json.wordInduction generalizing d with
  | word j hword =>
    cases hd with
    | null => rfl
    | bool b => rfl
    | integer n => rfl
    | plain h => exact settle_plain h hj
    | text | sequence | map => cases hword
  | text s =>
    cases hd with
    | text => rfl
    | plain h => cases h
  | array js ih =>
    cases hd with
    | plain h => cases h
    | @sequence ds _ hds =>
      have hitems : settleItems ds = .ok (Json.Content.documents (Json.contentItems js)) := by
        replace hj := Json.every_array.mp hj
        induction js generalizing ds with
        | nil =>
          cases hds
          rfl
        | cons j js ihs =>
          cases hds with
          | cons h hs =>
            rw [List.forall_mem_cons] at ih hj
            rw [settleItems, ih.1 h hj.1, ihs ih.2 hs hj.2]
            rfl
      rw [settle, hitems]
      rfl
  | object es ih =>
    cases hd with
    | plain h => cases h
    | @map ms _ hms =>
      have hmembers : settleMembers ms
          = .ok (Json.Content.memberDocuments (Json.contentMembers es)) := by
        replace hj := Json.every_object.mp hj
        induction es generalizing ms with
        | nil =>
          cases hms
          rfl
        | cons e es ihs =>
          cases hms with
          | cons h hs =>
            rw [List.forall_mem_cons] at ih hj
            rw [settleMembers, ih.1 h hj.1.2, ihs ih.2 hs hj.2]
            rfl
      rw [settle, hmembers]
      rfl

/-! ## Readers -/

variable {α β σ : Type} {read : Document → Decoded α} {j : Json} {a : α}

/-- The reader gets `a` out of every document that holds the value. -/
def Reads (read : Document → Decoded α) (j : Json) (a : α) : Prop :=
  ∀ d, Holds d j → read d = .ok a

/-- No value is read in two ways. -/
theorem Reads.unique {b : α} (ha : Reads read j a) (hb : Reads read j b) : a = b :=
  Except.ok.inj ((ha _ (holds_content j)).symm.trans (hb _ (holds_content j)))

/-- What is made of an answer is made of what the value holds. -/
theorem Reads.map (h : Reads read j a) (f : α → β) : Reads (fun d => (read d).map f) j (f a) :=
  fun d hd => congrArg (Except.map f) (h d hd)

theorem reads_readText (s : String) : Reads readText (.text s) s := by
  intro d hd
  cases hd with
  | text => rfl
  | plain h => cases h

theorem reads_readBool (b : Bool) : Reads readBool (.bool b) b := by
  intro d hd
  cases hd with
  | bool => rfl
  | plain h =>
    cases b with
    | false => rfl
    | true => rfl

/-- An integer is found, typed or not, if it is in range and is spelled as is
asked for. -/
theorem reads_readInteger {spelled? : List Char → Option Int} {low high n : Int}
    (expected : Expected) (hspelled : spelled? (Decimal.intDigits n) = some n)
    (hrange : low ≤ n ∧ n ≤ high) :
    Reads (readInteger spelled? expected low high) (.integer n) n := by
  intro d hd
  cases hd with
  | integer => exact if_pos hrange
  | plain h =>
    have hprint : (Json.integer n).print.toList = Decimal.intDigits n := String.toList_ofList
    have hseen : (plain (Json.integer n).print).seenAs .integer = plain (Json.integer n).print :=
      rfl
    rw [readInteger]
    simp only [hseen, hprint, hspelled, if_pos hrange]

/-- A natural number of so many bits is read as itself. -/
theorem reads_readNatural {bits n : Nat} (h : n < Nat.pow 2 bits) :
    Reads (readNatural bits) (.integer n) n := by
  have hrange : (0 : Int) ≤ n ∧ (n : Int) ≤ Nat.pow 2 bits - 1 := by omega
  exact (reads_readInteger (.unsigned bits) (Plain.unsigned?_intDigits n) hrange).map Int.toNat

theorem reads_readUInt32 (n : UInt32) : Reads readUInt32 (.integer n.toNat) n := by
  have hnatural : Reads (readNatural 32) (.integer n.toNat) n.toNat :=
    reads_readNatural n.toNat_lt_size
  have hread := hnatural.map UInt32.ofNat
  rwa [UInt32.ofNat_toNat] at hread

theorem reads_readUInt64 (n : UInt64) : Reads readUInt64 (.integer n.toNat) n := by
  have hnatural : Reads (readNatural 64) (.integer n.toNat) n.toNat :=
    reads_readNatural n.toNat_lt_size
  have hread := hnatural.map UInt64.ofNat
  rwa [UInt64.ofNat_toNat] at hread

theorem reads_readInt32 (n : Int32) : Reads readInt32 (.integer n.toInt) n := by
  have hread := (reads_readInteger (.signed 32) (Plain.integer?_intDigits n.toInt)
    ⟨n.minValue_le_toInt, n.toInt_le⟩).map Int32.ofInt
  rwa [Int32.ofInt_toInt] at hread

theorem reads_readOption_null : Reads (readOption read) .null none := by
  intro d hd
  cases hd with
  | null => rfl
  | plain h => rfl

/-- A value that may be absent is there if it is a collection. -/
theorem Reads.option {es : List (String × Json)} (h : Reads read (.object es) a) :
    Reads (readOption read) (.object es) (some a) := by
  intro d hd
  have hread := h d hd
  cases hd with
  | map => exact congrArg (Except.map some) hread
  | plain h => cases h

/-- Elements are read one by one. -/
theorem reads_readItems {js : List Json} {as : List α} (h : List.Forall₂ (Reads read) js as) :
    Reads (readList read) (.array js) as := by
  intro d hd
  cases hd with
  | plain h => cases h
  | @sequence ds _ hds =>
    have hitems : readItems read ds = .ok as := by
      induction h generalizing ds with
      | nil =>
        cases hds
        rfl
      | cons ha _ ih =>
        cases hds with
        | cons hd hds => rw [readItems, ha _ hd, ih hds]; rfl
    rw [Json.readList_sequence, hitems]

/-- A list is read back if whatever is listed is. -/
theorem reads_readList {write : α → Json} (h : ∀ a, Reads read (write a) a) (as : List α) :
    Reads (readList read) (.array (as.map write)) as := by
  refine reads_readItems ?_
  rw [List.forall₂_map_left_iff, List.forall₂_same]
  exact fun a _ => h a

/-- Entries are read one by one, a key before its value. -/
theorem reads_readPairs {readKey : Document → Decoded α} {name : α → String}
    (hkey : ∀ a, readKey (.text (name a)) = .ok a) {readValue : Document → Decoded β}
    {write : β → Json} {es : List (α × β)} (h : ∀ e ∈ es, Reads readValue (write e.2) e.2) :
    Reads (readPairs readKey readValue) (.object (es.map fun e => (name e.1, write e.2))) es := by
  intro d hd
  cases hd with
  | plain h => cases h
  | @map ms _ hms =>
    have hentries : readEntries readKey readValue ms = .ok es := by
      induction es generalizing ms with
      | nil =>
        cases hms
        rfl
      | cons e es ih =>
        cases hms with
        | cons hd hms =>
          rw [List.forall_mem_cons] at h
          rw [readEntries, hkey, h.1 _ hd, ih h.2 hms]
          rfl
    rw [Json.readPairs_map, hentries]

/-! ## Records -/

section Records

variable (r : RecordReader σ α)

/-- The members of a record take its slots from `s` to `s'`. -/
def Fills (es : List (String × Json)) (s s' : σ) : Prop :=
  ∀ ms, HoldsMembers ms es → r.readMembers ms s = .ok s'

theorem fills_nil (s : σ) : Fills r [] s s := by
  intro ms hms
  cases hms
  rfl

variable {r}

/-- A member that the record knows is read, and its empty slot is set to the answer. -/
theorem fills_cons {k : String} {i : Nat} {es : List (String × Json)} {s s' : σ} (set : β → σ)
    {b : β} {read : Document → Decoded β} (hread : Reads read j b)
    (hmember : r.members.idxOf? k = some i) (hempty : r.isSet i s = false)
    (hfill : ∀ d, r.fill i d s = (read d).map set) (hes : Fills r es (set b) s') :
    Fills r ((k, j) :: es) s s' := by
  intro ms hms
  cases hms with
  | @cons _ d _ ms _ hd hms =>
    have hmember : r.readMember (.text k) d s = .ok (set b) := by
      rw [RecordReader.readMember_of_empty hmember hempty, hfill]
      exact hread.map set d hd
    rw [RecordReader.readMembers, hmember]
    exact hes ms hms

/-- A record is read if its members fill the slots that make it up. -/
theorem reads_record (form : ArrayForm) {es : List (String × Json)} {s : σ}
    (hes : Fills r es r.blank s) (hfinish : r.finish s = .ok a) :
    Reads (r.read form) (.object es) a := by
  intro d hd
  cases hd with
  | plain h => cases h
  | @map ms _ hms =>
    change (r.readMembers ms r.blank >>= r.finish) = _
    rw [hes ms hms]
    exact hfinish

end Records

/-! ## Tagged records -/

/-- The members behind the tag are taken in, and none of them is a tag. -/
theorem settleTagged_of_holds {τ : Type} (tagName : String) (readTag : Document → Decoded τ) (t : τ)
    {ms : List (Document × Document)} {es : List (String × Json)} (hms : HoldsMembers ms es)
    (hkeys : tagName ∉ es.map Prod.fst) (hfit : ∀ e ∈ es, e.2.AllFit) :
    settleTagged tagName readTag ms (some t)
      = .ok (some t, Json.Content.memberDocuments (Json.contentMembers es)) := by
  induction es generalizing ms with
  | nil =>
    cases hms
    rfl
  | cons e es ih =>
    cases hms with
    | @cons k d j ms _ hd hms =>
      rw [List.map_cons, List.mem_cons, not_or] at hkeys
      rw [List.forall_mem_cons] at hfit
      have hkey : (k == tagName) = false := beq_eq_false_iff_ne.mpr (Ne.symm hkeys.1)
      change (if k == tagName then _ else _) = _
      rw [hkey, if_neg Bool.false_ne_true, settle_of_holds hd hfit.1, ih hms hkeys.2 hfit.2]
      rfl

/-- A tagged record is read as its content, by the reader that the tag calls for. -/
theorem Reads.tagged {τ : Type} {name tagName s : String} {readTag : Document → Decoded τ} {t : τ}
    {readContent : Document → τ → Decoded α} {es : List (String × Json)}
    (htag : readTag (.text s) = .ok t) (hkeys : tagName ∉ es.map Prod.fst)
    (hfit : ∀ e ∈ es, e.2.AllFit) (hes : Reads (readContent · t) (.object es) a) :
    Reads (fun d => readTagged name tagName readTag d >>= fun r => readContent r.2 r.1)
      (.object ((tagName, .text s) :: es)) a := by
  intro d hd
  cases hd with
  | plain h => cases h
  | @map ms _ hms =>
    cases hms with
    | @cons _ _ _ ms _ htext hms =>
      cases htext with
      | plain h => cases h
      | text =>
        have hsettle := settleTagged_of_holds tagName readTag t hms hkeys hfit
        have hread : readTagged name tagName readTag (.map ((.text tagName, .text s) :: ms) true)
            = .ok (t, (Json.object es).content.document) := by
          change (settleTagged tagName readTag ((.text tagName, .text s) :: ms) none >>= _) = _
          change ((if tagName == tagName then _ else _) >>= _) = _
          rw [beq_self_eq_true, if_pos rfl, Option.isSome_none, if_neg Bool.false_ne_true, htag]
          change (settleTagged tagName readTag ms (some t) >>= _) = _
          rw [hsettle]
          rfl
        change (readTagged name tagName readTag _ >>= _) = _
        rw [hread]
        exact hes _ (holds_content (.object es))

/-! ## Whole texts -/

/-- A printed JSON text is read as the value that its documents are read as. -/
theorem Reads.decode_print (h : Reads read j a) (hj : j.AllFit)
    (hdepth : j.nesting ≤ Json.maxDepth) : Json.decode read j.print = .ok a := by
  rw [(denotes_print hj hdepth).decode]
  exact h _ (holds_content j)

end Document

end LoadTest
