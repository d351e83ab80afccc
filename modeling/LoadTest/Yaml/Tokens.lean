/-
The tokens of a YAML text.

The text is read once from its beginning to its end. In front of each token
blanks, comments and line breaks are passed, candidates that are out of reach
are dropped, and blocks are closed that end here. The first character then says
which token begins.
-/
import LoadTest.Yaml.BlockScalar
import LoadTest.Yaml.Layout
import LoadTest.Yaml.Scalar
import LoadTest.Yaml.Tag

set_option autoImplicit false

namespace LoadTest.Yaml

namespace Layout

/-! ## Between tokens -/

/-- Whether a character is passed between tokens. Where a key may begin,
tabulators count as no indentation and are not passed. -/
def isPassed (l : Layout) (c : Char) : Bool :=
  c == ' ' || ((l.inFlow || !l.keyAllowed) && c == '\t')

/-- The place behind a byte-order mark at the beginning of a line. -/
def skipMark (c : Cursor) : Cursor :=
  if c.column == 0 && c.rest.head?.any isMark then c.skip 1 else c

/-- Pass blanks, comments and line breaks. A key may begin on each new line. -/
def skipGap : Nat → Layout → Layout
  | 0, l => l
  | fuel + 1, l =>
    let c := (((skipMark l.cursor).skipWhile l.isPassed).skipComment)
    match c.nextLine? with
    | some (_, next) => skipGap fuel ((l.moveTo next).allowKey (l.keyAllowed || !l.inFlow))
    | none => l.moveTo c

/-! ## Tokens by their first character -/

/-- Read one mark of a single character. -/
def mark (t : Token) (l : Layout) : Layout := (l.emit t).moveTo (l.cursor.skip 1)

/-- A directive. -/
def directive? (l : Layout) : Option Layout := do
  let l ← l.closeAllBlocks.giveUp?
  let r ← scanDirective l.cursor
  some (((l.allowKey false).emit r.1).moveTo r.2)

/-- A marker between documents. -/
def marker? (t : Token) (l : Layout) : Option Layout := do
  let l ← l.closeAllBlocks.giveUp?
  some (((l.allowKey false).emit t).moveTo (l.cursor.skip 3))

/-- An opening bracket. -/
def openFlow? (t : Token) (l : Layout) : Option Layout := do
  let l ← l.propose?
  some ((l.enterFlow.allowKey true).mark t)

/-- A closing bracket. -/
def closeFlow? (t : Token) (l : Layout) : Option Layout := do
  let l ← l.giveUp?
  some ((l.leaveFlow.allowKey false).mark t)

/-- A comma. -/
def flowEntry? (l : Layout) : Option Layout := do
  let l ← l.giveUp?
  some ((l.allowKey true).mark .flowEntry)

/-- A dash. -/
def blockEntry? (l : Layout) : Option Layout := do
  if !l.inFlow && !l.keyAllowed then none
  let l ← (l.openBlock .blockSequenceStart l.cursor.column).giveUp?
  some ((l.allowKey true).mark .blockEntry)

/-- A question mark. -/
def keyMark? (l : Layout) : Option Layout := do
  if !l.inFlow && !l.keyAllowed then none
  let l ← (l.openBlock .blockMappingStart l.cursor.column).giveUp?
  some ((l.allowKey (!l.inFlow)).mark .key)

/-- A colon. -/
def valueMark? (l : Layout) : Option Layout :=
  match l.candidate with
  | some k => some (((l.makeKey k).allowKey false).mark .value)
  | none =>
    if !l.inFlow && !l.keyAllowed then none
    else
      some (((l.openBlock .blockMappingStart l.cursor.column).allowKey (!l.inFlow)).mark .value)

/-- The name of an anchor or an alias. -/
def named? (t : String → Token) (l : Layout) : Option Layout := do
  let l ← l.propose?
  let r ← scanName l.cursor
  some (((l.allowKey false).emit (t r.1)).moveTo r.2)

/-- A tag. -/
def tag? (l : Layout) : Option Layout := do
  let l ← l.propose?
  let r ← scanTag l.inFlow l.cursor
  some (((l.allowKey false).emit (.tag r.1)).moveTo r.2)

/-- A scalar that is written as a block. -/
def block? (literal : Bool) (fuel : Nat) (l : Layout) : Option Layout := do
  let l ← l.giveUp?
  let r ← blockScalar literal l.columns.head? fuel l.cursor
  let style : ScalarStyle := if literal then .literal else .folded
  some (((l.allowKey true).emit (.scalar r.1 style)).moveTo r.2)

/-- A quoted scalar. -/
def quoted? (double : Bool) (fuel : Nat) (l : Layout) : Option Layout := do
  let l ← l.propose?
  let r ← quotedScalar double fuel l.cursor
  some (((l.allowKey false).emit (.scalar r.1 .quoted)).moveTo r.2)

/-- A plain scalar. A key may follow if it was ended by a line break. -/
def plain? (fuel : Nat) (l : Layout) : Option Layout := do
  let l ← l.propose?
  let r ← plainScalar l.inFlow ((l.columns.head?.map (· + 1)).getD 0) fuel l.cursor
  some (((l.allowKey r.2.1).emit (.scalar r.1 .plain)).moveTo r.2.2)

/-- A character that no plain scalar begins with, at least not with any
character behind it. -/
def isIndicator (c : Char) : Bool :=
  ['-', '?', ':', ',', '[', ']', '{', '}', '#', '&', '*', '!', '|', '>', '\'', '"', '%', '@',
    '\x60'].contains c

/-- Whether a plain scalar begins with the character `a`, with `cs` behind
it. -/
def startsPlain (flow : Bool) (a : Char) (cs : List Char) : Bool :=
  !(isIndicator a || isGap [a]) || (a == '-' && !cs.head?.any isBlank)
    || (!flow && (a == '?' || a == ':') && !isGap cs)

/-- The token that begins with the character `a`, with `cs` behind it. `fuel`
must exceed the number of characters that are left. -/
def token? (fuel : Nat) (a : Char) (cs : List Char) (l : Layout) : Option Layout :=
  if a = '%' ∧ l.cursor.column = 0 then l.directive?
  else if l.cursor.atMarker then l.marker? (if a = '-' then .documentStart else .documentEnd)
  else if a = '[' then l.openFlow? .flowSequenceStart
  else if a = '{' then l.openFlow? .flowMappingStart
  else if a = ']' then l.closeFlow? .flowSequenceEnd
  else if a = '}' then l.closeFlow? .flowMappingEnd
  else if a = ',' then l.flowEntry?
  else if a = '-' ∧ isGap cs then l.blockEntry?
  else if a = '?' ∧ (l.inFlow ∨ isGap cs) then l.keyMark?
  else if a = ':' ∧ (l.inFlow ∨ isGap cs) then l.valueMark?
  else if a = '*' then l.named? .alias
  else if a = '&' then l.named? .anchor
  else if a = '!' then l.tag?
  else if a = '|' ∧ !l.inFlow then l.block? true fuel
  else if a = '>' ∧ !l.inFlow then l.block? false fuel
  else if a = '\'' then l.quoted? false fuel
  else if a = '"' then l.quoted? true fuel
  else if startsPlain l.inFlow a cs then l.plain? fuel
  else none

/-! ## The whole text -/

/-- Tokens up to the end of the text. `fuel` must exceed the number of characters
that are left; each token takes at least one of them. -/
def tokens? : Nat → Layout → Option (List Token)
  | 0, _ => none
  | fuel + 1, l => do
    let l ← (skipGap (fuel + 1) l).expireAll?
    let l := l.closeBlocks l.cursor.column
    match l.cursor.rest with
    | [] => (l.closeAllBlocks.giveUp?).map (·.tokens.reverse)
    | a :: cs => (l.token? (fuel + 1) a cs).bind (tokens? fuel)

end Layout

/-- The tokens of a text, if it can be cut into tokens. -/
def tokens? (cs : List Char) : Option (List Token) :=
  if cs.all isReadable then Layout.tokens? (cs.length + 1) (.start cs) else none

end LoadTest.Yaml
