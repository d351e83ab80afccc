/-
Documents: what a text holds, before it is known which type is wanted.

A document keeps what a reader may still have to decide on. An unquoted scalar
is not yet typed. A part that cannot be taken in stays in its place, so that
only a reader that reaches it fails: text that is not well formed, and parts
that may be passed over but not read. A reader therefore meets the faults of a
text in the order in which they stand there.

Where the shape of a value is looked at before its type is known, the value is
taken in as a whole (`Document.settle`). What a reader does not ask for is
passed over (`Document.pass`).
-/
import LoadTest.Document.Error
import LoadTest.Document.Plain
import LoadTest.Document.Tag

set_option autoImplicit false

namespace LoadTest

/-- The content of a text. -/
inductive Document where
  | null
  | bool (b : Bool)
  | integer (n : Int)
  | float (x : Binary64)
  /-- A quoted scalar. -/
  | text (s : String)
  /-- An unquoted scalar that is still to be typed. -/
  | plain (s : String)
  /-- A scalar that is written as a literal block: a text, unless its tag says
  that it is what a reader asks for. -/
  | literal (s : String)
  /-- A value with an explicit tag. -/
  | tagged (tag : Tag) (d : Document)
  /-- Elements in order; not `closed` if the text breaks off or goes wrong behind
  the last of them. -/
  | sequence (items : List Document) (closed : Bool)
  /-- Keys with values in order. -/
  | map (members : List (Document × Document)) (closed : Bool)
  /-- A value that may be passed over, but not entered or read; why not. -/
  | barred (error : DecodeError) (d : Document)
  /-- Text that is not well formed. -/
  | malformed

namespace Document

instance : Inhabited Document := ⟨null⟩

mutual
/-- The number of levels. -/
def height : Document → Nat
  | sequence items _ => heightItems items + 1
  | map members _ => heightMembers members + 1
  | tagged _ d => height d + 1
  | barred _ d => height d + 1
  | _ => 0

/-- The number of levels of the tallest element. -/
def heightItems : List Document → Nat
  | [] => 0
  | d :: ds => max (height d) (heightItems ds)

/-- The number of levels of the tallest key or value. -/
def heightMembers : List (Document × Document) → Nat
  | [] => 0
  | (k, v) :: ms => max (max (height k) (height v)) (heightMembers ms)
end

/-! ## Tags -/

/-- The document without tags around it. -/
def untagged : Document → Document
  | tagged _ d => untagged d
  | literal s => text s
  | d => d

/-- The document as a reader of the type with a tag sees it: without its tag,
and a literal block with this very tag as an unquoted scalar. -/
def seenAs (wanted : Tag) : Document → Document
  | tagged tag (literal s) => if tag = wanted then plain s else text s
  | d => d.untagged

/-- The characters that a scalar consists of, quoted or not. -/
def spelling? (d : Document) : Option String :=
  match d.untagged with
  | text s => some s
  | plain s => some s
  | _ => none

/-! ## Typing -/

/-- An unquoted scalar, typed by its spelling. -/
def ofPlain (s : String) : Decoded Document :=
  match Plain.resolve s with
  | .null => .ok null
  | .bool b => .ok (bool b)
  | .integer n => .ok (integer n)
  | .float x => .ok (float x)
  | .text => .ok (text s)
  | .tooLarge => Decoded.misfit (.unsuitedScalar s)

/-- A scalar, typed by an explicit tag. A tag that is none of the known ones
makes it a text. -/
def ofTagged (tag : Tag) (s : String) : Decoded Document :=
  match tag with
  | .bool =>
    match Plain.bool? s with
    | some b => .ok (bool b)
    | none => Decoded.misfit (.unsuitedScalar s)
  | .integer =>
    match (Plain.integer? s.toList).bind Plain.placeInteger with
    | some (.integer n) => .ok (integer n)
    | _ => Decoded.misfit (.unsuitedScalar s)
  | .float =>
    match Plain.float? s with
    | some x => .ok (float x)
    | none => Decoded.misfit (.unsuitedScalar s)
  | .null => if Plain.isNull s then .ok null else Decoded.misfit (.unsuitedScalar s)
  | .variant name => Decoded.misfit (.unsuitedTag name)
  | _ => .ok (text s)

/-- An unquoted scalar with a tag. A tag that says nothing leaves it to its
spelling. -/
def ofTaggedPlain (tag : Tag) (s : String) : Decoded Document :=
  if tag = .unreadable then ofPlain s else ofTagged tag s

/-- Refuse a value whose tag names a variant. -/
def refuseVariant (tag : Tag) : Decoded Unit :=
  match tag with
  | .variant name => Decoded.misfit (.unsuitedTag name)
  | _ => .ok ()

/-- What a key is, given its spelling and what it means as a value: zero with a
minus sign is no number of a member. -/
def asKey (spelling : Option String) (d : Document) : Document :=
  match d with
  | integer 0 =>
    if spelling.any fun s => s.toList.head? == some '-' then
      barred (.misfit (.invalidType (.integer 0) .member)) d
    else d
  | d => d

/-- Whether elements or members are complete. -/
def requireClosed (closed : Bool) : Decoded Unit := if closed then .ok () else .error .malformed

mutual
/-- Take a document in as a whole: every scalar typed, nothing barred or
malformed left. -/
def settle : Document → Decoded Document
  | null => .ok null
  | bool b => .ok (bool b)
  | integer n => .ok (integer n)
  | float x => .ok (float x)
  | text s => .ok (text s)
  | plain s => ofPlain s
  | literal s => .ok (text s)
  | tagged tag d =>
    match d with
    | text s => ofTagged tag s
    | literal s => ofTagged tag s
    | plain s => ofTaggedPlain tag s
    | d => do
      refuseVariant tag
      settle d
  | sequence items closed => do
    let items ← settleItems items
    requireClosed closed
    pure (sequence items true)
  | map members closed => do
    let members ← settleMembers members
    requireClosed closed
    pure (map members true)
  | barred e _ => .error e
  | malformed => .error .malformed

/-- Take elements in, one after another. -/
def settleItems : List Document → Decoded (List Document)
  | [] => .ok []
  | d :: ds => do
    let d ← settle d
    let ds ← settleItems ds
    pure (d :: ds)

/-- Take keys and values in, one after another. -/
def settleMembers : List (Document × Document) → Decoded (List (Document × Document))
  | [] => .ok []
  | (k, v) :: ms => do
    let key ← settle k
    let v ← settle v
    let ms ← settleMembers ms
    pure ((asKey k.spelling? key, v) :: ms)
end

/-- Take a key in. -/
def settleKey (k : Document) : Decoded Document := (settle k).map (asKey k.spelling?)

mutual
/-- Pass over a document: it must be well formed, and nothing else. -/
def pass : Document → Decoded Unit
  | sequence items closed => do
    passItems items
    requireClosed closed
  | map members closed => do
    passMembers members
    requireClosed closed
  | tagged _ d => pass d
  | barred _ d => pass d
  | malformed => .error .malformed
  | _ => .ok ()

/-- Pass over elements. -/
def passItems : List Document → Decoded Unit
  | [] => .ok ()
  | d :: ds => do
    pass d
    passItems ds

/-- Pass over keys and values. -/
def passMembers : List (Document × Document) → Decoded Unit
  | [] => .ok ()
  | (k, v) :: ms => do
    pass k
    pass v
    passMembers ms
end

/-! ## Refusing -/

/-- What a document is, for a message. Unquoted scalars count as what they
mean. -/
def found : Document → Found
  | null => .null
  | bool b => .bool b
  | integer n => .integer n
  | float x => .float x
  | text s => .text s
  | plain s =>
    match Plain.resolve s with
    | .null => .null
    | .bool b => .bool b
    | .integer n => .integer n
    | .float x => .float x
    | _ => .text s
  | literal s => .text s
  | tagged _ d => found d
  | sequence .. => .sequence
  | map .. => .map
  | barred _ d => found d
  | malformed => .null

/-- Whether a document is a sequence or a map. -/
def isCollection : Document → Bool
  | sequence .. => true
  | map .. => true
  | _ => false

/-- Refuse a document of another type than the expected one. A scalar must be
read to be refused, so one that cannot be read is malformed; a collection need
not be entered. -/
def mismatch {α : Type} (d : Document) (expected : Expected) : Decoded α :=
  match d with
  | malformed => .error .malformed
  | barred e d' =>
    if d'.isCollection then Decoded.misfit (.invalidType d'.found expected) else .error e
  | d => Decoded.misfit (.invalidType d.found expected)

end Document

end LoadTest
