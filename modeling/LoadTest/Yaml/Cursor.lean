/-
Places in YAML texts.

A cursor holds the text from a place on, and where that place is: how many
octets and line breaks stand before it, and its column. Columns count
characters and decide which block a line belongs to; the other two limit how
far apart a key and its colon may be. Six characters break lines, and a carriage
return together with a line feed is one break.
-/

set_option autoImplicit false

namespace LoadTest.Yaml

/-! ## Classes of characters -/

/-- A blank within a line. -/
def isBlank (c : Char) : Bool := c == ' ' || c == '\t'

/-- The line and paragraph separators, which stay what they are when a line is
broken by them. -/
def isSeparator (c : Char) : Bool := c.toNat == 0x2028 || c.toNat == 0x2029

/-- A character that breaks lines. -/
def isBreak (c : Char) : Bool := c == '\n' || c == '\r' || c.toNat == 0x85 || isSeparator c

/-- Whether a text begins with a blank or a line break, or is at its end. -/
def isGap : List Char → Bool
  | [] => true
  | c :: _ => isBlank c || isBreak c

/-- A character of the names of anchors, handles and directives. -/
def isWord (c : Char) : Bool :=
  ('0' ≤ c && c ≤ '9') || ('a' ≤ c && c ≤ 'z') || ('A' ≤ c && c ≤ 'Z') || c == '_' || c == '-'

/-- A character that may stand in a text at all. -/
def isReadable (c : Char) : Bool :=
  let n := c.toNat
  n == 0x09 || n == 0x0A || n == 0x0D || (0x20 ≤ n && n ≤ 0x7E) || n == 0x85
    || (0xA0 ≤ n && n ≤ 0xD7FF) || (0xE000 ≤ n && n ≤ 0xFFFD) || 0x10000 ≤ n

/-- The byte-order mark. -/
def isMark (c : Char) : Bool := c.toNat == 0xFEFF

/-- The number of octets that encode characters. -/
def octets : List Char → Nat
  | [] => 0
  | c :: cs => c.utf8Size + octets cs

@[simp] theorem octets_nil : octets [] = 0 := rfl

@[simp] theorem octets_cons (c : Char) (cs : List Char) :
    octets (c :: cs) = c.utf8Size + octets cs := rfl

/-! ## Cursors -/

/-- A place in a text. -/
structure Cursor where
  /-- The text from the place on. -/
  rest : List Char
  /-- The number of octets before the place. -/
  index : Nat
  /-- The number of line breaks before the place. -/
  line : Nat
  /-- The number of characters between the last line break and the place. -/
  column : Nat
  deriving Inhabited

namespace Cursor

/-- The beginning of a text. -/
def start (cs : List Char) : Cursor := ⟨cs, 0, 0, 0⟩

/-- Go on by `n` characters of the same line. -/
def skip (n : Nat) (c : Cursor) : Cursor :=
  ⟨c.rest.drop n, c.index + octets (c.rest.take n), c.line, c.column + n⟩

/-- Go on to a later place of the same line, given by the text from there on. -/
def skipTo (rest : List Char) (c : Cursor) : Cursor := c.skip (c.rest.length - rest.length)

/-- Go past all characters of a class; no line break is in it. -/
def skipWhile (p : Char → Bool) (c : Cursor) : Cursor := c.skip (c.rest.takeWhile p).length

/-- The line break at a place, as it counts in a text, and the beginning of the
next line. -/
def nextLine? (c : Cursor) : Option (Char × Cursor) :=
  match c.rest with
  | '\r' :: '\n' :: cs => some ('\n', ⟨cs, c.index + 2, c.line + 1, 0⟩)
  | b :: cs =>
    if isBreak b then
      some (if isSeparator b then b else '\n', ⟨cs, c.index + b.utf8Size, c.line + 1, 0⟩)
    else none
  | [] => none

/-- Go to the end of a comment, if one begins here. -/
def skipComment (c : Cursor) : Cursor :=
  if c.rest.head? == some '#' then c.skipWhile (fun a => !isBreak a) else c

/-- The beginning of the next line, or the end of the text, if only blanks and
a comment stand before it. -/
def lineEnd? (c : Cursor) : Option Cursor :=
  let c := (c.skipWhile isBlank).skipComment
  match c.nextLine? with
  | some r => some r.2
  | none => if c.rest.isEmpty then some c else none

/-- Whether the place is the beginning of a line with a marker between
documents. -/
def atMarker (c : Cursor) : Bool :=
  c.column == 0 && (c.rest.take 3 == ['-', '-', '-'] || c.rest.take 3 == ['.', '.', '.'])
    && isGap (c.rest.drop 3)

/-! ## What the steps leave -/

@[simp] theorem rest_skip (n : Nat) (c : Cursor) : (c.skip n).rest = c.rest.drop n := rfl

@[simp] theorem line_skip (n : Nat) (c : Cursor) : (c.skip n).line = c.line := rfl

@[simp] theorem column_skip (n : Nat) (c : Cursor) : (c.skip n).column = c.column + n := rfl

theorem rest_skipWhile (p : Char → Bool) (c : Cursor) :
    (c.skipWhile p).rest = c.rest.dropWhile p := by
  simp only [skipWhile, rest_skip]
  induction c.rest with
  | nil => rfl
  | cons a cs ih =>
    by_cases h : p a
    · simp [h, ih]
    · simp [h]

/-- There is no line break at a place unless the character there breaks lines. -/
theorem nextLine?_eq_none {c : Cursor} {a : Char} {cs : List Char} (h : c.rest = a :: cs)
    (hb : isBreak a = false) : c.nextLine? = none := by
  unfold nextLine?
  rw [h]
  split
  · next h1 =>
    obtain ⟨rfl, _⟩ := List.cons.inj h1
    simp [isBreak] at hb
  · next h1 =>
    obtain ⟨rfl, rfl⟩ := List.cons.inj h1
    simp [hb]
  · rfl

end Cursor

end LoadTest.Yaml
