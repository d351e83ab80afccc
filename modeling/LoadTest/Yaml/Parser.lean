/-
Reading YAML texts.

The tokens of a text are put together to a graph of nodes. A scalar is kept as
it was written, and an alias as the number of its anchor. Collections have
members in the order of the text, repeated keys included. A text is well formed
as a whole or not at all, and every alias must have a name that stands in front
of it; what the aliases amount to is another question.
-/
import LoadTest.Yaml.Node
import LoadTest.Yaml.Tokens

set_option autoImplicit false

namespace LoadTest.Yaml

/-! ## Directives -/

/-- The handles of a document, with what they stand for. -/
abbrev Handles := List (String × TagText)

/-- The handles that are known without a directive. -/
def defaultHandles : Handles :=
  [("!", ['!'].map some), ("!!", "tag:yaml.org,2002:".toList.map some)]

/-- Versions of the language that are understood. -/
def isKnownVersion (major minor : Nat) : Bool := major == 1 && (minor == 1 || minor == 2)

/-- The directives in front of a document. There must be only one version, and
only one directive for each handle. -/
def directives : Bool → Handles → List Token → Option (Handles × List Token)
  | versioned, handles, .version major minor :: ts =>
    if versioned || !isKnownVersion major minor then none else directives true handles ts
  | versioned, handles, .handle name stem :: ts =>
    if (handles.lookup name).isSome then none
    else directives versioned ((name, stem) :: handles) ts
  | _, handles, ts => some (handles, ts)

/-- What a tag says; none if its handle is unknown. -/
def WrittenTag.resolve? (handles : Handles) (t : WrittenTag) : Option Tag :=
  if t.handle.isEmpty then some t.suffix.tag
  else (handles.lookup t.handle).map fun stem => TagText.tag (stem ++ t.suffix)

/-! ## Nodes -/

/-- The scalar that stands where there is none. -/
def emptyScalar (tag : Option Tag) : Node := .scalar tag "" .plain

/-- The tokens that are still to be read, and the anchors up to there. -/
structure Remaining where
  tokens : List Token
  anchors : Anchors

/-- What may stand in front of a value. -/
structure Properties where
  anchor : Option String
  tag : Option WrittenTag

/-- The anchor and the tag in front of a value, in any order. -/
def properties : List Token → Properties × List Token
  | .anchor a :: .tag t :: ts => (⟨some a, some t⟩, ts)
  | .tag t :: .anchor a :: ts => (⟨some a, some t⟩, ts)
  | .anchor a :: ts => (⟨some a, none⟩, ts)
  | .tag t :: ts => (⟨none, some t⟩, ts)
  | ts => (⟨none, none⟩, ts)

/-- What the tag says, if there is one. -/
def Properties.tag? (handles : Handles) (p : Properties) : Option (Option Tag) :=
  match p.tag with
  | none => some none
  | some t => (t.resolve? handles).map some

/-- The anchors up to a value, its own included. -/
def Properties.declare (p : Properties) (a : Anchors) : Anchors :=
  match p.anchor with
  | none => a
  | some name => a.declare name

/-- The anchors behind a value, given those in front of it. -/
def Properties.define (p : Properties) (before : Anchors) (n : Node) (a : Anchors) : Anchors :=
  if p.anchor.isSome then a.define before.next n else a

/-- Where a value stands. -/
inductive Site where
  /-- Within brackets. -/
  | flow
  /-- As an entry of a block, or as a whole document. -/
  | block
  /-- As a key or a value of a block. Its entries need not be indented. -/
  | member
  deriving DecidableEq

/-- Whether a key of a block, or its value, is left out. -/
def endsMember : List Token → Bool
  | .key :: _ => true
  | .value :: _ => true
  | .blockEnd :: _ => true
  | _ => false

/-- Whether an entry of a block is left out. -/
def endsEntry : List Token → Bool
  | .blockEntry :: _ => true
  | .blockEnd :: _ => true
  | _ => false

/-- Whether a value within braces is left out. -/
def endsFlowMember : List Token → Bool
  | .flowEntry :: _ => true
  | .flowMappingEnd :: _ => true
  | _ => false

/-- Whether a value within square brackets is left out. -/
def endsFlowEntry : List Token → Bool
  | .flowEntry :: _ => true
  | .flowSequenceEnd :: _ => true
  | _ => false

/-- The tokens behind a comma; at the beginning there is none. -/
def afterComma? (first : Bool) (ts : List Token) : Option (List Token) :=
  if first then some ts
  else match ts with
    | .flowEntry :: ts => some ts
    | _ => none

/-- An empty scalar, with `ts` left to be read. -/
def leftOut (ts : List Token) (r : Remaining) : Option (Node × Remaining) :=
  some (emptyScalar none, ⟨ts, r.anchors⟩)

/-- Properties without a value behind them: they stand for an empty scalar. -/
def Properties.alone (p : Properties) (tag : Option Tag) (r : Remaining) :
    Option (Node × Remaining) :=
  if p.anchor.isSome || p.tag.isSome then some (emptyScalar tag, r) else none

mutual
/-- A value with its properties, or an alias. -/
def node (handles : Handles) : Nat → Site → Remaining → Option (Node × Remaining)
  | 0, _, _ => none
  | fuel + 1, site, r =>
    match r.tokens with
    | .alias name :: ts => (r.anchors.number? name).map fun i => (.alias i, ⟨ts, r.anchors⟩)
    | ts => do
      let (p, ts) := properties ts
      let tag ← p.tag? handles
      let (n, r') ← content handles fuel site p tag ⟨ts, p.declare r.anchors⟩
      some (n, ⟨r'.tokens, p.define r.anchors n r'.anchors⟩)

/-- A value behind its properties. -/
def content (handles : Handles) : Nat → Site → Properties → Option Tag → Remaining →
    Option (Node × Remaining)
  | 0, _, _, _, _ => none
  | fuel + 1, site, p, tag, r =>
    match r.tokens with
    | .scalar s style :: ts => some (.scalar tag s style, ⟨ts, r.anchors⟩)
    | .flowSequenceStart :: ts => do
      let (ns, r) ← flowEntries handles fuel true ⟨ts, r.anchors⟩
      some (.sequence tag ns, r)
    | .flowMappingStart :: ts => do
      let (ms, r) ← flowMembers handles fuel true ⟨ts, r.anchors⟩
      some (.mapping tag ms, r)
    | .blockSequenceStart :: ts =>
      if site = .flow then p.alone tag r
      else do
        let (ns, r) ← blockEntries handles fuel ⟨ts, r.anchors⟩
        some (.sequence tag ns, r)
    | .blockMappingStart :: ts =>
      if site = .flow then p.alone tag r
      else do
        let (ms, r) ← blockMembers handles fuel ⟨ts, r.anchors⟩
        some (.mapping tag ms, r)
    | .blockEntry :: _ =>
      if site = .member then do
        let (ns, r) ← looseEntries handles fuel r
        some (.sequence tag ns, r)
      else p.alone tag r
    | _ => p.alone tag r

/-- The entries of a block up to its end. -/
def blockEntries (handles : Handles) : Nat → Remaining → Option (List Node × Remaining)
  | 0, _ => none
  | fuel + 1, r =>
    match r.tokens with
    | .blockEntry :: ts => do
      let (n, r) ←
        if endsEntry ts then leftOut ts r else node handles fuel .block ⟨ts, r.anchors⟩
      let (ns, r) ← blockEntries handles fuel r
      some (n :: ns, r)
    | .blockEnd :: ts => some ([], ⟨ts, r.anchors⟩)
    | _ => none

/-- Entries that are indented no further than the key in front of them. -/
def looseEntries (handles : Handles) : Nat → Remaining → Option (List Node × Remaining)
  | 0, _ => none
  | fuel + 1, r =>
    match r.tokens with
    | .blockEntry :: ts => do
      let (n, r) ←
        if endsEntry ts || endsMember ts then leftOut ts r
        else node handles fuel .block ⟨ts, r.anchors⟩
      let (ns, r) ← looseEntries handles fuel r
      some (n :: ns, r)
    | _ => some ([], r)

/-- The keys and values of a block up to its end. -/
def blockMembers (handles : Handles) :
    Nat → Remaining → Option (List (Node × Node) × Remaining)
  | 0, _ => none
  | fuel + 1, r =>
    match r.tokens with
    | .key :: ts => do
      let (k, r) ←
        if endsMember ts then leftOut ts r else node handles fuel .member ⟨ts, r.anchors⟩
      let (v, r) ← blockValue handles fuel r
      let (ms, r) ← blockMembers handles fuel r
      some ((k, v) :: ms, r)
    | .blockEnd :: ts => some ([], ⟨ts, r.anchors⟩)
    | _ => none

/-- The value behind a key of a block. -/
def blockValue (handles : Handles) : Nat → Remaining → Option (Node × Remaining)
  | 0, _ => none
  | fuel + 1, r =>
    match r.tokens with
    | .value :: ts =>
      if endsMember ts then leftOut ts r else node handles fuel .member ⟨ts, r.anchors⟩
    | ts => leftOut ts r

/-- The entries within square brackets up to the closing one. -/
def flowEntries (handles : Handles) : Nat → Bool → Remaining → Option (List Node × Remaining)
  | 0, _, _ => none
  | fuel + 1, first, r =>
    match r.tokens with
    | .flowSequenceEnd :: ts => some ([], ⟨ts, r.anchors⟩)
    | ts => do
      let ts ← afterComma? first ts
      match ts with
      | .flowSequenceEnd :: ts => some ([], ⟨ts, r.anchors⟩)
      | .key :: ts =>
        let (n, r) ← lonePair handles fuel ⟨ts, r.anchors⟩
        let (ns, r) ← flowEntries handles fuel false r
        some (n :: ns, r)
      | ts =>
        let (n, r) ← node handles fuel .flow ⟨ts, r.anchors⟩
        let (ns, r) ← flowEntries handles fuel false r
        some (n :: ns, r)

/-- A map of one member that stands within square brackets without braces.
Where the key is left out, the token in its place is passed over. -/
def lonePair (handles : Handles) : Nat → Remaining → Option (Node × Remaining)
  | 0, _ => none
  | fuel + 1, r => do
    let (k, r) ← match r.tokens with
      | .value :: ts => leftOut ts r
      | .flowEntry :: ts => leftOut ts r
      | .flowSequenceEnd :: ts => leftOut ts r
      | ts => node handles fuel .flow ⟨ts, r.anchors⟩
    let (v, r) ← match r.tokens with
      | .value :: ts =>
        if endsFlowEntry ts then leftOut ts r else node handles fuel .flow ⟨ts, r.anchors⟩
      | ts => leftOut ts r
    some (.mapping none [(k, v)], r)

/-- The keys and values within braces up to the closing one. -/
def flowMembers (handles : Handles) :
    Nat → Bool → Remaining → Option (List (Node × Node) × Remaining)
  | 0, _, _ => none
  | fuel + 1, first, r =>
    match r.tokens with
    | .flowMappingEnd :: ts => some ([], ⟨ts, r.anchors⟩)
    | ts => do
      let ts ← afterComma? first ts
      match ts with
      | .flowMappingEnd :: ts => some ([], ⟨ts, r.anchors⟩)
      | .key :: ts =>
        let (k, r) ←
          if endsFlowMember ts || ts.head? == some .value then leftOut ts r
          else node handles fuel .flow ⟨ts, r.anchors⟩
        let (v, r) ← flowValue handles fuel r
        let (ms, r) ← flowMembers handles fuel false r
        some ((k, v) :: ms, r)
      | ts =>
        let (k, r) ← node handles fuel .flow ⟨ts, r.anchors⟩
        let (ms, r) ← flowMembers handles fuel false r
        some ((k, emptyScalar none) :: ms, r)

/-- The value behind a key within braces. -/
def flowValue (handles : Handles) : Nat → Remaining → Option (Node × Remaining)
  | 0, _ => none
  | fuel + 1, r =>
    match r.tokens with
    | .value :: ts =>
      if endsFlowMember ts then leftOut ts r else node handles fuel .flow ⟨ts, r.anchors⟩
    | ts => leftOut ts r
end

/-! ## Documents -/

/-- Whether a document is at its end before it has begun. -/
def isBare : List Token → Bool
  | [] => true
  | .version .. :: _ => true
  | .handle .. :: _ => true
  | .documentStart :: _ => true
  | .documentEnd :: _ => true
  | _ => false

/-- The document that the tokens make up, and the tokens behind it. Each value
takes at most three steps for every token. -/
def root (handles : Handles) (ts : List Token) : Option (Graph × List Token) :=
  (node handles (3 * ts.length + 3) .block ⟨ts, .empty⟩).map fun r =>
    (⟨r.1, r.2.anchors⟩, r.2.tokens)

/-- The document that stands where there is none. -/
def emptyGraph : Graph := ⟨emptyScalar none, .empty⟩

/-- The first document of a text, and the tokens behind it. Behind directives
there must be a marker in front of it. -/
def firstDocument (ts : List Token) : Option (Graph × List Token) := do
  let (handles, rest) ← directives false [] ts
  match rest with
  | .documentStart :: rest =>
    if isBare rest then some (emptyGraph, rest) else root (handles ++ defaultHandles) rest
  | [] => if ts.isEmpty then some (emptyGraph, []) else none
  | rest => if rest.length = ts.length then root defaultHandles rest else none

/-- Whether a token ends a document. -/
def isDocumentEnd (t : Token) : Bool := t = .documentEnd

/-- The graph of a text that is well formed and holds one document. -/
def parse (cs : List Char) : Option Graph := do
  let ts ← tokens? cs
  let (g, rest) ← firstDocument ts
  if (rest.dropWhile isDocumentEnd).isEmpty then some g else none

end LoadTest.Yaml
