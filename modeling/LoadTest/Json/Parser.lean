/-
Reading JSON texts.

`parse` turns a text into a document and says whether nothing but blanks
follows it. The document also holds what precedes a fault in the text, so that
a reader who meets a misfit earlier reports that first. Collections deeper than
127 levels are barred, and so are texts with half of a surrogate pair: they may
be passed over.
-/
import LoadTest.Json.Number

set_option autoImplicit false

namespace LoadTest.Json

/-! ## Blanks and words -/

/-- A blank between the parts of a text. -/
def isBlank (c : Char) : Bool := c == ' ' || c == '\n' || c == '\t' || c == '\r'

/-- The text behind its leading blanks. -/
def skipBlanks (cs : List Char) : List Char := cs.dropWhile isBlank

/-- What follows a word at the beginning of a text. -/
def afterWord? : List Char → List Char → Option (List Char)
  | [], cs => some cs
  | w :: ws, c :: cs => if w = c then afterWord? ws cs else none
  | _ :: _, [] => none

/-! ## Texts -/

/-- A piece of a text: a character, or an escaped 16-bit unit. -/
inductive Piece where
  | char (c : Char)
  | unit (n : Nat)

/-- The value of a hexadecimal digit of either case. -/
def hexValue? (c : Char) : Option Nat := Plain.digit? 16 c

/-- The value of four hexadecimal digits. -/
def hexUnit? (a b c d : Char) : Option Nat := do
  let a ← hexValue? a
  let b ← hexValue? b
  let c ← hexValue? c
  let d ← hexValue? d
  some (((a * 16 + b) * 16 + c) * 16 + d)

/-- The character that stands behind a backslash for another one. -/
def escaped? (c : Char) : Option Char :=
  if c = '"' then some '"'
  else if c = '\\' then some '\\'
  else if c = '/' then some '/'
  else if c = 'b' then some '\x08'
  else if c = 'f' then some '\x0c'
  else if c = 'n' then some '\n'
  else if c = 'r' then some '\r'
  else if c = 't' then some '\t'
  else none

/-- The pieces of a text up to its closing quotation mark, and what follows. -/
def scanText : List Char → Option (List Piece × List Char)
  | [] => none
  | '"' :: cs => some ([], cs)
  | '\\' :: 'u' :: a :: b :: c :: d :: cs =>
    match hexUnit? a b c d, scanText cs with
    | some n, some (ps, rest) => some (.unit n :: ps, rest)
    | _, _ => none
  | '\\' :: c :: cs =>
    match escaped? c, scanText cs with
    | some e, some (ps, rest) => some (.char e :: ps, rest)
    | _, _ => none
  | c :: cs =>
    if c = '\\' ∨ c.toNat < 32 then none
    else match scanText cs with
      | some (ps, rest) => some (.char c :: ps, rest)
      | none => none

/-- Whether a unit is the first half of a pair. -/
def isHighHalf (n : Nat) : Bool := 0xD800 ≤ n && n < 0xDC00

/-- Whether a unit is the second half of a pair. -/
def isLowHalf (n : Nat) : Bool := 0xDC00 ≤ n && n < 0xE000

/-- The characters that pieces make up; none if half of a pair is missing. -/
def joinPieces : List Piece → Option (List Char)
  | [] => some []
  | .char c :: ps => (joinPieces ps).map (c :: ·)
  | .unit h :: .unit l :: ps =>
    if isHighHalf h then
      if isLowHalf l then
        (joinPieces ps).map (Char.ofNat (0x10000 + (h - 0xD800) * 0x400 + (l - 0xDC00)) :: ·)
      else none
    else if isLowHalf h then none
    else (joinPieces (.unit l :: ps)).map (Char.ofNat h :: ·)
  | .unit n :: ps =>
    if isHighHalf n || isLowHalf n then none else (joinPieces ps).map (Char.ofNat n :: ·)

/-- Pieces as a document. -/
def textDocument (ps : List Piece) : Document :=
  match joinPieces ps with
  | some cs => .text (String.ofList cs)
  | none => .barred .malformed (.text "")

/-! ## Values -/

/-- The number of levels that can be read. -/
def maxDepth : Nat := 127

/-- A collection at a level, barred beyond the last level that can be read. -/
def atDepth (depth : Nat) (d : Document) : Document :=
  if depth < maxDepth then d else .barred .malformed d

/-- What a part of a text holds, and the text behind it; no rest if the part is
not well formed. -/
abbrev Scan (α : Type) := α × Option (List Char)

/-- A word that stands for a document. -/
def wordDocument (w : List Char) (d : Document) (cs : List Char) : Scan Document :=
  match afterWord? w cs with
  | some rest => (d, some rest)
  | none => (.malformed, none)

mutual
/-- The value at the beginning of a text, below `depth` collections. -/
def value : Nat → Nat → List Char → Scan Document
  | 0, _, _ => (.malformed, none)
  | fuel + 1, depth, cs =>
    match cs with
    | 'n' :: cs => wordDocument ['u', 'l', 'l'] .null cs
    | 't' :: cs => wordDocument ['r', 'u', 'e'] (.bool true) cs
    | 'f' :: cs => wordDocument ['a', 'l', 's', 'e'] (.bool false) cs
    | '"' :: cs =>
      match scanText cs with
      | some (ps, rest) => (textDocument ps, some rest)
      | none => (.malformed, none)
    | '[' :: cs =>
      match skipBlanks cs with
      | ']' :: rest => (atDepth depth (.sequence [] true), some rest)
      | cs =>
        let r := items fuel (depth + 1) cs
        (atDepth depth (.sequence r.1 r.2.isSome), r.2)
    | '{' :: cs =>
      match skipBlanks cs with
      | '}' :: rest => (atDepth depth (.map [] true), some rest)
      | '"' :: cs =>
        let r := members fuel (depth + 1) cs
        (atDepth depth (.map r.1 r.2.isSome), r.2)
      | cs =>
        let k : Document := .barred .malformed (.barred .malformed (value fuel (depth + 1) cs).1)
        (atDepth depth (.map [(k, .malformed)] false), none)
    | cs =>
      match Numeral.scan cs with
      | some (n, rest) => (n.toDocument, some rest)
      | none => (.malformed, none)

/-- The elements from here to the closing bracket. -/
def items : Nat → Nat → List Char → Scan (List Document)
  | 0, _, _ => ([], none)
  | fuel + 1, depth, cs =>
    match value fuel depth cs with
    | (d, none) => ([d], none)
    | (d, some rest) =>
      match skipBlanks rest with
      | ']' :: rest => ([d], some rest)
      | ',' :: rest =>
        match skipBlanks rest with
        | ']' :: _ => ([d], none)
        | rest =>
          let r := items fuel depth rest
          (d :: r.1, r.2)
      | _ => ([d], none)

/-- The members from here to the closing brace; the quotation mark of the
first key has been read. -/
def members : Nat → Nat → List Char → Scan (List (Document × Document))
  | 0, _, _ => ([], none)
  | fuel + 1, depth, cs =>
    match scanText cs with
    | none => ([(.malformed, .malformed)], none)
    | some (ps, rest) =>
      match skipBlanks rest with
      | ':' :: rest =>
        match value fuel depth (skipBlanks rest) with
        | (d, none) => ([(textDocument ps, d)], none)
        | (d, some rest) =>
          match skipBlanks rest with
          | '}' :: rest => ([(textDocument ps, d)], some rest)
          | ',' :: rest =>
            match skipBlanks rest with
            | '"' :: rest =>
              let r := members fuel depth rest
              ((textDocument ps, d) :: r.1, r.2)
            | _ => ([(textDocument ps, d)], none)
          | _ => ([(textDocument ps, d)], none)
      | _ => ([(textDocument ps, .malformed)], none)
end

/-! ## Whole texts -/

/-- The document of a text, and whether nothing but blanks follows it. Each
level and each element takes at least one character, and at most two steps. -/
def parse (cs : List Char) : Document × Bool :=
  let r := value (2 * cs.length + 2) 0 (skipBlanks cs)
  (r.1, r.2.any fun rest => (skipBlanks rest).isEmpty)

/-- Read a value from a text. What follows the value is looked at last. -/
def decode {α : Type} (read : Document → Decoded α) (s : String) : Decoded α := do
  let p := parse s.toList
  let a ← read p.1
  Document.requireClosed p.2
  pure a

/-- How numbers with a fraction are written in messages about JSON texts: written
out from `0.00001` up to below `10 ^ 16`. -/
def floats : Shortest.Layout := ⟨fun k => -5 ≤ k && k ≤ 15⟩

end LoadTest.Json
