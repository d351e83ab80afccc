/-
The smallest parts of TOML texts: blanks, comments, line ends, quoted and bare
names.

Each scan answers with what it has read and the text behind it, or with nothing
if the text does not begin that way. A scan that goes on in steps is told how
many there may be; it is enough if that number exceeds the number of characters.

Quoted texts come in four forms: with or without escapes, on one line or on
several. In the longer forms a line break directly behind the opening marks does
not count, and up to two quotation marks may stand in front of the closing ones.
-/
import LoadTest.Document.Plain

set_option autoImplicit false

namespace LoadTest.Toml

/-! ## Blanks, comments and lines -/

/-- A blank within a line. -/
def isBlank (c : Char) : Bool := c == ' ' || c == '\t'

/-- The text behind its leading blanks. -/
def skipBlanks (cs : List Char) : List Char := cs.dropWhile isBlank

/-- The text behind a line break. -/
def newline? : List Char → Option (List Char)
  | '\n' :: cs => some cs
  | '\r' :: '\n' :: cs => some cs
  | _ => none

/-- A character that is allowed in comments: no control but the tabulator. -/
def isText (c : Char) : Bool := c == '\t' || (32 ≤ c.toNat && c.toNat != 127)

/-- The text behind a comment, if it begins with one. -/
def skipComment : List Char → List Char
  | '#' :: cs => cs.dropWhile isText
  | cs => cs

/-- The text behind the rest of a line: blanks and a comment at most. -/
def lineEnd? (cs : List Char) : Option (List Char) :=
  match skipComment (skipBlanks cs) with
  | [] => some []
  | cs => newline? cs

/-- The text behind blanks, comments and line breaks. A comment counts only
together with its line break. -/
def skipGap : Nat → List Char → List Char
  | 0, cs => cs
  | fuel + 1, cs =>
    let cs := skipBlanks cs
    match newline? (skipComment cs) with
    | some rest => skipGap fuel rest
    | none => cs

/-! ## Quoted texts -/

/-- The character with a given number, if there is one. -/
def scalar? (n : Nat) : Option Char := if n.isValidChar then some (Char.ofNat n) else none

/-- A character given by `n` hexadecimal digits. -/
def hexChar? (n : Nat) (cs : List Char) : Option (Char × List Char) := do
  if (cs.take n).length < n then none
  let v ← Plain.digits? 16 (cs.take n)
  let c ← scalar? v
  some (c, cs.drop n)

/-- The character that an escape stands for; the backslash has been read. -/
def escape? : List Char → Option (Char × List Char)
  | 'b' :: cs => some ('\x08', cs)
  | 't' :: cs => some ('\t', cs)
  | 'n' :: cs => some ('\n', cs)
  | 'f' :: cs => some ('\x0c', cs)
  | 'r' :: cs => some ('\r', cs)
  | '"' :: cs => some ('"', cs)
  | '\\' :: cs => some ('\\', cs)
  | 'u' :: cs => hexChar? 4 cs
  | 'U' :: cs => hexChar? 8 cs
  | _ => none

/-- The rest of a text with escapes on one line. -/
def scanBasic : Nat → List Char → Option (List Char × List Char)
  | 0, _ => none
  | fuel + 1, cs =>
    match cs with
    | '"' :: cs => some ([], cs)
    | '\\' :: cs => do
      let e ← escape? cs
      let r ← scanBasic fuel e.2
      some (e.1 :: r.1, r.2)
    | c :: cs =>
      if isText c then (scanBasic fuel cs).map fun r => (c :: r.1, r.2) else none
    | [] => none

/-- The rest of a text without escapes on one line. -/
def scanLiteral : List Char → Option (List Char × List Char)
  | '\'' :: cs => some ([], cs)
  | c :: cs => if isText c then (scanLiteral cs).map fun r => (c :: r.1, r.2) else none
  | [] => none

/-- The text behind the blanks and line breaks that follow a backslash at the
end of a line. -/
def skipBreaks : List Char → List Char
  | '\n' :: cs => skipBreaks cs
  | '\r' :: '\n' :: cs => skipBreaks cs
  | ' ' :: cs => skipBreaks cs
  | '\t' :: cs => skipBreaks cs
  | cs => cs

/-- What a run of quotation marks means in a text of several lines: fewer than
three belong to the text, three close it, and one or two in front of those
belong to the text again. -/
def marksInText (n : Nat) : Option (Nat × Bool) :=
  if n < 3 then some (n, false) else if n ≤ 5 then some (n - 3, true) else none

/-- The rest of a text on several lines. A backslash begins an escape, or joins
lines, only if `escapes` is set. -/
def scanLong (mark : Char) (escapes : Bool) : Nat → List Char → Option (List Char × List Char)
  | 0, _ => none
  | fuel + 1, cs =>
    match cs with
    | [] => none
    | c :: rest =>
      if c = mark then
        let run := cs.takeWhile (· == mark)
        match marksInText run.length with
        | none => none
        | some (n, true) => some (List.replicate n mark, cs.dropWhile (· == mark))
        | some (n, false) =>
          (scanLong mark escapes fuel (cs.dropWhile (· == mark))).map fun r =>
            (List.replicate n mark ++ r.1, r.2)
      else if c = '\\' ∧ escapes then
        match newline? (skipBlanks rest) with
        | some rest => scanLong mark escapes fuel (skipBreaks rest)
        | none => do
          let e ← escape? rest
          let r ← scanLong mark escapes fuel e.2
          some (e.1 :: r.1, r.2)
      else match newline? cs with
        | some rest => (scanLong mark escapes fuel rest).map fun r => ('\n' :: r.1, r.2)
        | none =>
          if isText c then (scanLong mark escapes fuel rest).map fun r => (c :: r.1, r.2) else none

/-- A text on several lines, behind its opening marks. -/
def scanLongFrom (mark : Char) (escapes : Bool) (fuel : Nat) (cs : List Char) :
    Option (List Char × List Char) :=
  scanLong mark escapes fuel ((newline? cs).getD cs)

/-- A quoted text of any form. -/
def scanQuoted (fuel : Nat) : List Char → Option (List Char × List Char)
  | '"' :: '"' :: '"' :: cs => scanLongFrom '"' true fuel cs
  | '"' :: cs => scanBasic fuel cs
  | '\'' :: '\'' :: '\'' :: cs => scanLongFrom '\'' false fuel cs
  | '\'' :: cs => scanLiteral cs
  | _ => none

/-! ## Names -/

/-- A character of a name without quotation marks. -/
def isBare (c : Char) : Bool :=
  Decimal.isDigit c || ('a' ≤ c && c ≤ 'z') || ('A' ≤ c && c ≤ 'Z') || c == '_' || c == '-'

/-- One name: bare, or quoted on one line. -/
def scanName (fuel : Nat) : List Char → Option (String × List Char)
  | '"' :: cs => (scanBasic fuel cs).map fun r => (String.ofList r.1, r.2)
  | '\'' :: cs => (scanLiteral cs).map fun r => (String.ofList r.1, r.2)
  | cs =>
    let name := cs.takeWhile isBare
    if name.isEmpty then none else some (String.ofList name, cs.dropWhile isBare)

/-- Names with points between them; blanks may stand around each. -/
def scanNames : Nat → List Char → Option (List String × List Char)
  | 0, _ => none
  | fuel + 1, cs => do
    let n ← scanName (fuel + 1) (skipBlanks cs)
    match skipBlanks n.2 with
    | '.' :: rest => (scanNames fuel rest).map fun r => (n.1 :: r.1, r.2)
    | rest => some ([n.1], rest)

/-- The number of nested values or names at which a text is refused. -/
def depthLimit : Nat := 80

/-- A key: the names that lead to an entry, and the name of the entry. -/
def scanKey (fuel : Nat) (cs : List Char) : Option ((List String × String) × List Char) := do
  let r ← scanNames fuel cs
  if depthLimit ≤ r.1.length then none
  let last ← r.1.getLast?
  some ((r.1.dropLast, last), r.2)

end LoadTest.Toml
