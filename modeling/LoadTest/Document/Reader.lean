/-
Reading values out of documents.

A reader either gets its value or the first fault it meets. Records are read
member by member in the order of the document: an unknown member is passed
over, a known one is read into its slot, and a second one of the same name is
refused before it is read. A record may also be given as the array of its
members in declaration order, as far as the format allows.
-/
import LoadTest.Document.Basic

set_option autoImplicit false

namespace LoadTest

/-- What becomes of an array that stands for a record. -/
inductive ArrayForm where
  /-- Surplus elements are malformed text. -/
  | exact
  /-- Surplus elements are not looked at. -/
  | lenient
  /-- Surplus elements are counted and refused. -/
  | counted
  /-- An array is no record. -/
  | refused
  deriving DecidableEq

namespace Document

/-! ## Scalars -/

/-- A text. An unquoted scalar counts as written, whatever it would mean. -/
def readText (d : Document) : Decoded String :=
  match d.untagged with
  | text s => .ok s
  | plain s => .ok s
  | d => d.mismatch .string

/-- A truth value. -/
def readBool (d : Document) : Decoded Bool :=
  match d.seenAs .bool with
  | bool b => .ok b
  | plain s =>
    match Plain.bool? s with
    | some b => .ok b
    | none => (plain s).mismatch .boolean
  | d => d.mismatch .boolean

/-- An integer that must lie in a range. `spelled?` says which spellings
count. -/
def readInteger (spelled? : List Char → Option Int) (expected : Expected) (low high : Int)
    (d : Document) : Decoded Int :=
  let place (n : Int) : Decoded Int :=
    if low ≤ n ∧ n ≤ high then .ok n else Decoded.misfit (.invalidValue (.integer n) expected)
  match d.seenAs .integer with
  | integer n => place n
  | plain s =>
    match spelled? s.toList with
    | some n => place n
    | none => (plain s).mismatch expected
  | d => d.mismatch expected

/-- A natural number of so many bits. It is not spelled with a minus sign, not
even zero. -/
def readNatural (bits : Nat) (d : Document) : Decoded Nat :=
  (d.readInteger Plain.unsigned? (.unsigned bits) 0 (Nat.pow 2 bits - 1)).map Int.toNat

/-- A natural number of 32 bits. -/
def readUInt32 (d : Document) : Decoded UInt32 := (d.readNatural 32).map UInt32.ofNat

/-- A natural number of 64 bits. -/
def readUInt64 (d : Document) : Decoded UInt64 := (d.readNatural 64).map UInt64.ofNat

/-- An integer of 32 bits. -/
def readInt32 (d : Document) : Decoded Int32 :=
  (d.readInteger Plain.integer? (.signed 32) Int32.minValue.toInt Int32.maxValue.toInt).map
    Int32.ofInt

/-! ## Collections -/

/-- The elements of a sequence, and whether they are complete. An empty
unquoted scalar is an empty sequence. -/
def readSequence (d : Document) : Decoded (List Document × Bool) :=
  match d.untagged with
  | sequence items closed => .ok (items, closed)
  | barred e (sequence ..) => .error e
  | plain s => if s.isEmpty then .ok ([], true) else (plain s).mismatch .sequence
  | d => d.mismatch .sequence

/-- Elements read one after another. -/
def readItems {α : Type} (read : Document → Decoded α) : List Document → Decoded (List α)
  | [] => .ok []
  | d :: ds => do
    let a ← read d
    let as ← readItems read ds
    pure (a :: as)

/-- A sequence of values. -/
def readList {α : Type} (read : Document → Decoded α) (d : Document) : Decoded (List α) := do
  let s ← d.readSequence
  let as ← readItems read s.1
  requireClosed s.2
  pure as

/-- The members of a map, and whether they are complete. An empty unquoted
scalar is an empty map. -/
def readMap (expected : Expected) (d : Document) : Decoded (List (Document × Document) × Bool) :=
  match d.untagged with
  | map members closed => .ok (members, closed)
  | barred e (map ..) => .error e
  | plain s => if s.isEmpty then .ok ([], true) else (plain s).mismatch expected
  | d => d.mismatch expected

/-- Keys and values read one after another, a key before its value. -/
def readEntries {α β : Type} (readKey : Document → Decoded α) (read : Document → Decoded β) :
    List (Document × Document) → Decoded (List (α × β))
  | [] => .ok []
  | (k, v) :: ms => do
    let a ← readKey k
    let b ← read v
    let es ← readEntries readKey read ms
    pure ((a, b) :: es)

/-- A map of values. -/
def readPairs {α β : Type} (readKey : Document → Decoded α) (read : Document → Decoded β)
    (d : Document) : Decoded (List (α × β)) := do
  let m ← d.readMap .map
  let es ← readEntries readKey read m.1
  requireClosed m.2
  pure es

/-- A value that may be absent: null, or an unquoted scalar that means nothing. -/
def readOption {α : Type} (read : Document → Decoded α) (d : Document) : Decoded (Option α) :=
  match d with
  | null => .ok none
  | plain s => if s.isEmpty || Plain.isNull s then .ok none else (read d).map some
  | tagged tag (plain s) =>
    if tag = .null then
      if Plain.isNull s then .ok none else Decoded.misfit (.unsuitedScalar s)
    else (read d).map some
  | d => (read d).map some

/-! ## Variants -/

/-- Look a name up among variants. -/
def variantNamed {α : Type} (known : List String) (named? : String → Option α) (s : String) :
    Decoded α :=
  match named? s with
  | some a => .ok a
  | none => Decoded.misfit (.unknownVariant s known)

/-- The name of a variant as a text. -/
def readVariantName (d : Document) : Decoded String :=
  match d.untagged with
  | text s => .ok s
  | plain s => .ok s
  | d => d.mismatch .variant

/-- The name of a variant as the single member of a map, whose value is null.
Here a key that is no text is refused for what it is; as a key it is barred
twice. -/
def readLoneVariant {α : Type} (known : List String) (named? : String → Option α) :
    List (Document × Document) → Bool → Decoded α
  | [], _ => .error .malformed
  | (k, v) :: rest, closed => do
    let name ← match k with
      | text s => pure s
      | barred _ (barred _ d) => d.mismatch .variant
      | d => d.mismatch .variant
    let a ← variantNamed known named? name
    match v with
    | null => pure ()
    | v => v.mismatch .unit
    if rest.isEmpty && closed then pure a else .error .malformed

/-- One of several variants: its name, or a map with the name as single key. -/
def readVariant {α : Type} (known : List String) (named? : String → Option α) (d : Document) :
    Decoded α :=
  match d with
  | text s => variantNamed known named? s
  | map members closed => readLoneVariant known named? members closed
  | _ => .error .malformed

/-- One of several variants, named by a key. A tag that names a variant takes
the place of the key; nothing may then stand behind it. -/
def readVariantKey {α : Type} (known : List String) (named? : String → Option α) (d : Document) :
    Decoded α :=
  match d with
  | tagged (.variant name) (plain s) => do
    let a ← variantNamed known named? name
    if s.isEmpty || Plain.isNull s then pure a else Decoded.misfit (.unsuitedScalar s)
  | tagged (.variant name) _ => Decoded.misfit (.unsuitedTag name)
  | d =>
    match d.spelling? with
    | some s => variantNamed known named? s
    | none => d.mismatch .variant

end Document

/-! ## Records -/

/-- How a record is read: slots of type `σ` are filled one by one, and made
into a value of type `α` in the end. -/
structure RecordReader (σ α : Type) where
  name : String
  /-- The names of the members, in declaration order. -/
  members : List String
  /-- Whether the member number `i` may be missing from an array. -/
  optional : Nat → Bool
  /-- All slots empty. -/
  blank : σ
  /-- Whether the slot of member number `i` is filled. -/
  isSet : Nat → σ → Bool
  /-- Read a document into the slot of member number `i`. -/
  fill : Nat → Document → σ → Decoded σ
  /-- The value that the slots make up; empty ones stand for missing members. -/
  finish : σ → Decoded α

namespace RecordReader

variable {σ α : Type} (r : RecordReader σ α)

/-- The number of the member that a key names, if there is one. A key that is
a number means the member with that number. -/
def memberIndex? (k : Document) : Decoded (Option Nat) :=
  match k.untagged with
  | .text s => .ok (r.members.idxOf? s)
  | .plain s => .ok (r.members.idxOf? s)
  | .integer n =>
    if 0 ≤ n then .ok (if n.toNat < r.members.length then some n.toNat else none)
    else k.mismatch .member
  | d => d.mismatch .member

/-- Read one member into its slot, or pass over it. -/
def readMember (k v : Document) (s : σ) : Decoded σ := do
  match ← r.memberIndex? k with
  | none =>
    v.pass
    pure s
  | some i =>
    if r.isSet i s then Decoded.misfit (.duplicateMember (r.members.getD i ""))
    else r.fill i v s

/-- Read members in the order of the document. -/
def readMembers : List (Document × Document) → σ → Decoded σ
  | [], s => .ok s
  | (k, v) :: ms, s => do
    let s ← r.readMember k v s
    readMembers ms s

/-- Read a record from a map. -/
def ofMembers (members : List (Document × Document)) (closed : Bool) : Decoded α := do
  let s ← r.readMembers members r.blank
  Document.requireClosed closed
  r.finish s

/-- Read the members from number `i` on, `left` in number, from an array. The
answer is what is left of the array. -/
def readElements (closed : Bool) : Nat → Nat → List Document → σ → Decoded (σ × List Document)
  | 0, _, ds, s => .ok (s, ds)
  | left + 1, i, [], s =>
    if !closed then .error .malformed
    else if r.optional i then readElements closed left (i + 1) [] s
    else Decoded.misfit (.shortRecord i r.name r.members.length)
  | left + 1, i, d :: ds, s => do
    let s ← r.fill i d s
    readElements closed left (i + 1) ds s

/-- What becomes of the elements behind the last member. -/
def finishArray (form : ArrayForm) (closed : Bool) (rest : List Document) : Decoded Unit :=
  match form with
  | .exact => if rest.isEmpty && closed then .ok () else .error .malformed
  | .counted =>
    if rest.isEmpty then .ok ()
    else Decoded.misfit (.longSequence (r.members.length + rest.length) r.members.length)
  | _ => .ok ()

/-- Read a record from an array. -/
def ofElements (form : ArrayForm) (items : List Document) (closed : Bool) : Decoded α := do
  let e ← r.readElements closed r.members.length 0 items r.blank
  let a ← r.finish e.1
  r.finishArray form closed e.2
  pure a

/-- Read a record. -/
def read (form : ArrayForm) (d : Document) : Decoded α :=
  match d.untagged with
  | .map members closed => r.ofMembers members closed
  | .sequence items closed =>
    if form = .refused then d.mismatch (.record r.name) else r.ofElements form items closed
  | .plain s => if s.isEmpty then r.ofMembers [] true else d.mismatch (.record r.name)
  | .barred e _ => .error e
  | d => d.mismatch (.record r.name)

end RecordReader

/-! ## Tagged records

The tag may stand anywhere among the members, so all of them are taken in
before the content is read. -/

namespace Document

/-- Take a tagged record in: the tag is read where it is met, the rest is
settled. -/
def settleTagged {τ : Type} (tagName : String) (readTag : Document → Decoded τ) :
    List (Document × Document) → Option τ → Decoded (Option τ × List (Document × Document))
  | [], tag => .ok (tag, [])
  | (k, v) :: ms, tag => do
    let k ← settleKey k
    match k with
    | text s =>
      if s == tagName then
        if tag.isSome then Decoded.misfit (.duplicateMember tagName)
        else
          let t ← readTag v
          settleTagged tagName readTag ms (some t)
      else
        let v ← settle v
        let r ← settleTagged tagName readTag ms tag
        pure (r.1, (k, v) :: r.2)
    | k =>
      let v ← settle v
      let r ← settleTagged tagName readTag ms tag
      pure (r.1, (k, v) :: r.2)

/-- A tagged record without a tag of the format around it. -/
def readTaggedContent {τ : Type} (name tagName : String) (readTag : Document → Decoded τ) :
    Document → Decoded (τ × Document)
  | map members closed => do
    let r ← settleTagged tagName readTag members none
    requireClosed closed
    match r.1 with
    | some t => pure (t, map r.2 true)
    | none => Decoded.misfit (.missingMember tagName)
  | sequence [] closed => do
    requireClosed closed
    Decoded.misfit (.missingMember tagName)
  | sequence (d :: ds) closed => do
    let t ← readTag d
    let items ← settleItems ds
    requireClosed closed
    pure (t, sequence items true)
  | barred e _ => .error e
  | d => d.mismatch (.taggedRecord name)

/-- A tagged record: its tag, and its content as a settled map or sequence. -/
def readTagged {τ : Type} (name tagName : String) (readTag : Document → Decoded τ) (d : Document) :
    Decoded (τ × Document) :=
  match d with
  | tagged tag inner => do
    refuseVariant tag
    readTaggedContent name tagName readTag inner
  | d => readTaggedContent name tagName readTag d

end Document

end LoadTest
