/-
Tags, anchors and directives of YAML texts.

A tag is written in full between angle brackets, or as a handle with a suffix.
What a handle stands for is stated at the beginning of a document; two handles
are known without that. A character of a tag may be given by the octets of its
encoding. The octet zero ends the text that it stands in, but not what is
written.
-/
import LoadTest.Document.Plain
import LoadTest.Document.Tag
import LoadTest.Yaml.Cursor
import LoadTest.Yaml.Token

set_option autoImplicit false

namespace LoadTest.Yaml

/-! ## Characters of tags -/

/-- A character of a tag. Commas and square brackets belong to tags that are
written in full only. -/
def isTagChar (full : Bool) (c : Char) : Bool :=
  isWord c
    || [';', '/', '?', ':', '@', '&', '=', '+', '$', '.', '~', '*', '\'', '(', ')', '!'].contains c
    || (full && (c == ',' || c == '[' || c == ']'))

/-- An octet that is given by two hexadecimal digits. -/
def octet? : List Char → Option (Nat × List Char)
  | '%' :: a :: b :: cs => do
    let high ← Plain.digit? 16 a
    let low ← Plain.digit? 16 b
    some (high * 16 + low, cs)
  | _ => none

/-- The octets that continue a character. -/
def continuation? : Nat → Nat → List Char → Option (Nat × List Char)
  | 0, n, cs => some (n, cs)
  | left + 1, n, cs => do
    let r ← octet? cs
    if r.1 / 64 = 2 then continuation? left (n * 64 + r.1 % 64) r.2 else none

/-- The number of octets that follow a first one, and its share of the
character. -/
def firstOctet? (n : Nat) : Option (Nat × Nat) :=
  if n < 0x80 then some (0, n)
  else if n / 32 = 6 then some (1, n % 32)
  else if n / 16 = 14 then some (2, n % 16)
  else if n / 8 = 30 then some (3, n % 8)
  else none

/-- The least number that is encoded with so many octets behind the first
one. -/
def leastCode : Nat → Nat
  | 0 => 0
  | 1 => 0x80
  | 2 => 0x800
  | _ => 0x10000

/-- A character that is given by the octets of its encoding; none if they encode
no character, or not in the shortest way. -/
def encodedChar? (cs : List Char) : Option (Option Char × List Char) := do
  let r ← octet? cs
  let f ← firstOctet? r.1
  let v ← continuation? f.1 f.2 r.2
  let encodes := leastCode f.1 ≤ v.1 ∧ v.1.isValidChar
  some (if encodes then some (Char.ofNat v.1) else none, v.2)

/-- The characters of a tag, and the text behind them. -/
def scanTagChars (full : Bool) : Nat → List Char → Option (TagText × List Char)
  | 0, _ => none
  | fuel + 1, cs =>
    match cs with
    | [] => some ([], [])
    | '%' :: _ => do
      let e ← encodedChar? cs
      let r ← scanTagChars full fuel e.2
      some (e.1 :: r.1, r.2)
    | c :: rest =>
      if isTagChar full c then (scanTagChars full fuel rest).map fun r => (some c :: r.1, r.2)
      else some ([], cs)

/-- All characters of a tag at the beginning of a text. -/
def tagChars (full : Bool) (cs : List Char) : Option (TagText × List Char) :=
  scanTagChars full (cs.length + 1) cs

/-- The text in front of the octet zero. -/
def tagText (cs : TagText) : TagText := cs.takeWhile (· != some '\x00')

/-! ## Tags -/

/-- A tag that is written in full; its first two characters have been read. -/
def fullTag? (cs : List Char) : Option (WrittenTag × List Char) := do
  let r ← tagChars true cs
  match r.2 with
  | '>' :: rest => if r.1.isEmpty then none else some (⟨"", tagText r.1⟩, rest)
  | _ => none

/-- A tag with a handle; its exclamation mark has been read. Without a second
mark, what looks like a name belongs to the suffix. A mark in front of no text
is a tag of its own. -/
def shortTag? (cs : List Char) : Option (WrittenTag × List Char) :=
  let name := cs.takeWhile isWord
  match cs.dropWhile isWord with
  | '!' :: rest => do
    let r ← tagChars false rest
    if r.1.isEmpty then none
    else some (⟨String.ofList ('!' :: name ++ ['!']), tagText r.1⟩, r.2)
  | rest => do
    let r ← tagChars false rest
    let suffix := tagText (name.map some ++ r.1)
    some (if suffix.isEmpty then ⟨"", [some '!']⟩ else ⟨"!", suffix⟩, r.2)

/-- Whether a tag may end in front of a text. -/
def endsTag (flow : Bool) (cs : List Char) : Bool := isGap cs || (flow && cs.head? == some ',')

/-- A tag. -/
def scanTag (flow : Bool) (c : Cursor) : Option (WrittenTag × Cursor) := do
  let r ← match c.rest with
    | '!' :: '<' :: cs => fullTag? cs
    | _ :: cs => shortTag? cs
    | [] => none
  if endsTag flow r.2 then some (r.1, c.skipTo r.2) else none

/-! ## What tags say -/

/-- What a text says as a public tag. -/
def publicTag (s : String) : Tag :=
  if s = "tag:yaml.org,2002:null" then .null
  else if s = "tag:yaml.org,2002:bool" then .bool
  else if s = "tag:yaml.org,2002:int" then .integer
  else if s = "tag:yaml.org,2002:float" then .float
  else .text

/-- What the text of a tag says. An exclamation mark in front marks the tag of
an application; the mark alone is a name itself. -/
def TagText.tag (cs : TagText) : Tag :=
  match cs.mapM id with
  | some ['!'] => .variant "!"
  | some ('!' :: name) => .variant (String.ofList name)
  | some cs => publicTag (String.ofList cs)
  | none => if cs.head? = some (some '!') then .unreadable else .text

/-! ## Anchors -/

/-- Whether the name of an anchor may end in front of a text. -/
def endsName (cs : List Char) : Bool :=
  isGap cs || cs.head?.any fun c => ['?', ':', ',', ']', '}', '%', '@', '\x60'].contains c

/-- The name of an anchor behind its mark. -/
def scanName (c : Cursor) : Option (String × Cursor) :=
  let c := c.skip 1
  let name := c.rest.takeWhile isWord
  let next := c.skip name.length
  if !name.isEmpty && endsName next.rest then some (String.ofList name, next) else none

/-! ## Directives -/

/-- A number of a version: one to nine digits. -/
def versionNumber? (cs : List Char) : Option (Nat × List Char) :=
  let ds := cs.takeWhile Decimal.isDigit
  if ds.isEmpty || 9 < ds.length then none
  else some (Decimal.value ds, cs.dropWhile Decimal.isDigit)

/-- The version of the language. -/
def versionDirective? (cs : List Char) : Option (Token × List Char) := do
  let major ← versionNumber? (cs.dropWhile isBlank)
  match major.2 with
  | '.' :: rest =>
    let minor ← versionNumber? rest
    some (.version major.1 minor.1, minor.2)
  | _ => none

/-- A handle: a name between two exclamation marks, or one of these alone. -/
def handle? : List Char → Option (String × List Char)
  | '!' :: cs =>
    let name := cs.takeWhile isWord
    match cs.dropWhile isWord with
    | '!' :: rest => some (String.ofList ('!' :: name ++ ['!']), rest)
    | rest => if name.isEmpty then some ("!", rest) else none
  | _ => none

/-- What a handle stands for. -/
def handleDirective? (cs : List Char) : Option (Token × List Char) := do
  let h ← handle? (cs.dropWhile isBlank)
  if !h.2.head?.any isBlank then none
  let stem ← tagChars true (h.2.dropWhile isBlank)
  if stem.1.isEmpty || !isGap stem.2 then none
  some (.handle h.1 (tagText stem.1), stem.2)

/-- A line with a directive. -/
def scanDirective (c : Cursor) : Option (Token × Cursor) := do
  let cs := c.rest.drop 1
  let name := cs.takeWhile isWord
  let rest := cs.dropWhile isWord
  if !isGap rest then none
  let r ←
    if name = ['Y', 'A', 'M', 'L'] then versionDirective? rest
    else if name = ['T', 'A', 'G'] then handleDirective? rest
    else none
  let next ← (c.skipTo r.2).lineEnd?
  some (r.1, next)

end LoadTest.Yaml
