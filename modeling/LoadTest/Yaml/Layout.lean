/-
The layout of YAML texts.

Blocks are open from the column of their first line on, and closed by a line
that begins before it. A key need not be marked: whatever could be one is noted
as a candidate, and becomes a key when a colon follows on the same line, not
too far behind. The token of the key is then put in front of what has been read
since.

A layout keeps what this takes, together with the tokens read so far. Within
brackets columns do not count, and each pair of brackets has a candidate of its
own.
-/
import LoadTest.Yaml.Cursor
import LoadTest.Yaml.Token

set_option autoImplicit false

namespace LoadTest.Yaml

/-- What may turn out to be a key. -/
structure Candidate where
  /-- The number of tokens in front of it. -/
  before : Nat
  index : Nat
  line : Nat
  column : Nat
  /-- Whether nothing but a key may begin there. -/
  required : Bool

/-- A place in a text, and what the text in front of it leaves open. -/
structure Layout where
  cursor : Cursor
  /-- The tokens so far, the last one first. -/
  tokens : List Token
  /-- The number of tokens so far. -/
  count : Nat
  /-- The columns of the open blocks, the innermost first. -/
  columns : List Nat
  /-- The candidate within the innermost brackets. -/
  candidate : Option Candidate
  /-- The candidates around these brackets, one for each pair. -/
  outer : List (Option Candidate)
  /-- Whether a key may begin here. -/
  keyAllowed : Bool

namespace Layout

/-- The layout at the beginning of a text. -/
def start (cs : List Char) : Layout := ⟨.start cs, [], 0, [], none, [], true⟩

/-- Whether the place is within brackets. -/
def inFlow (l : Layout) : Bool := !l.outer.isEmpty

/-- Note a token. -/
def emit (t : Token) (l : Layout) : Layout :=
  { l with tokens := t :: l.tokens, count := l.count + 1 }

/-- Note the ends of so many blocks. -/
def emitEnds (n : Nat) (l : Layout) : Layout :=
  { l with tokens := List.replicate n .blockEnd ++ l.tokens, count := l.count + n }

/-- Go on to another place. -/
def moveTo (c : Cursor) (l : Layout) : Layout := { l with cursor := c }

/-- Say whether a key may begin. -/
def allowKey (allowed : Bool) (l : Layout) : Layout := { l with keyAllowed := allowed }

/-! ## Blocks -/

/-- Whether a column lies further to the right than every open block. -/
def isInner (column : Nat) (l : Layout) : Bool := l.columns.head?.all (· < column)

/-- Open a block at a column, unless it lies in an open one. -/
def openBlock (t : Token) (column : Nat) (l : Layout) : Layout :=
  if !l.inFlow && l.isInner column then
    { l with columns := column :: l.columns }.emit t
  else l

/-- Close the blocks that stand on the right of a column. -/
def closeBlocks (column : Nat) (l : Layout) : Layout :=
  if l.inFlow then l
  else
    let closed := (l.columns.takeWhile (column < ·)).length
    { l with columns := l.columns.drop closed }.emitEnds closed

/-- Close all blocks. -/
def closeAllBlocks (l : Layout) : Layout :=
  if l.inFlow then l
  else { l with columns := [] }.emitEnds l.columns.length

/-! ## Keys -/

/-- The distance from its colon, in octets, beyond which a key is none any
more. -/
def reach : Nat := 1024

/-- Drop a candidate that is out of reach; there is no key where one is
required. -/
def expire? (c : Cursor) : Option Candidate → Option (Option Candidate)
  | none => some none
  | some k =>
    if k.line < c.line || k.index + reach < c.index then
      if k.required then none else some none
    else some (some k)

/-- Drop all candidates that are out of reach. -/
def expireAll? (l : Layout) : Option Layout := do
  let outer ← l.outer.mapM (expire? l.cursor)
  let candidate ← expire? l.cursor l.candidate
  some { l with outer := outer, candidate := candidate }

/-- Give the candidate up: it is no key. -/
def giveUp? (l : Layout) : Option Layout :=
  if l.candidate.any (·.required) then none else some { l with candidate := none }

/-- Note what begins here as a candidate, if a key may begin. -/
def propose? (l : Layout) : Option Layout :=
  if l.keyAllowed then
    (giveUp? l).map fun l' =>
      let c := l.cursor
      let required := !l.inFlow && l.columns.head? == some c.column
      { l' with candidate := some ⟨l.count, c.index, c.line, c.column, required⟩ }
  else some l

/-- Put tokens in front of the last `later` ones. -/
def insertBefore (later : Nat) (ts : List Token) (tokens : List Token) : List Token :=
  tokens.take later ++ ts.reverse ++ tokens.drop later

/-- The tokens stand between the earlier ones and the later ones. -/
theorem insertBefore_append (ts later before : List Token) :
    insertBefore later.length ts (later ++ before) = later ++ ts.reverse ++ before := by
  simp [insertBefore]

/-- Note tokens in front of those that were read after a candidate. -/
def emitBefore (k : Candidate) (ts : List Token) (l : Layout) : Layout :=
  { l with
    tokens := insertBefore (l.count - k.before) ts l.tokens
    count := l.count + ts.length }

/-- Make the candidate a key; it may open a block. -/
def makeKey (k : Candidate) (l : Layout) : Layout :=
  if !l.inFlow && l.isInner k.column then
    { l with columns := k.column :: l.columns, candidate := none }.emitBefore k
      [.blockMappingStart, .key]
  else { l with candidate := none }.emitBefore k [.key]

/-! ## Brackets -/

/-- Enter brackets. -/
def enterFlow (l : Layout) : Layout :=
  { l with outer := l.candidate :: l.outer, candidate := none }

/-- Leave brackets. -/
def leaveFlow (l : Layout) : Layout :=
  match l.outer with
  | [] => l
  | k :: ks => { l with outer := ks, candidate := k }

/-! ## The number of tokens

Every step keeps the number of tokens right, so it need not be counted. -/

/-- Whether a layout knows how many tokens it has. -/
def IsCounted (l : Layout) : Prop := l.count = l.tokens.length

theorem isCounted_start (cs : List Char) : (start cs).IsCounted := rfl

theorem IsCounted.emit {l : Layout} (h : l.IsCounted) (t : Token) : (l.emit t).IsCounted := by
  simp only [IsCounted, Layout.emit, List.length_cons] at *
  omega

theorem IsCounted.emitEnds {l : Layout} (h : l.IsCounted) (n : Nat) :
    (l.emitEnds n).IsCounted := by
  simp only [IsCounted, Layout.emitEnds, List.length_append, List.length_replicate] at *
  omega

theorem IsCounted.emitBefore {l : Layout} (h : l.IsCounted) (k : Candidate) (ts : List Token) :
    (l.emitBefore k ts).IsCounted := by
  simp only [IsCounted, Layout.emitBefore, insertBefore, List.length_append, List.length_take,
    List.length_reverse, List.length_drop] at *
  omega

end Layout

end LoadTest.Yaml
