/-
Scalars of YAML texts.

Quoted and plain scalars may go over several lines. Blanks around a line break
do not count; a single break becomes a space, and of several breaks the first
one does not count. Whether blanks and breaks count is only known when more of
the scalar follows, so each scan carries the gap that it has just passed.
-/
import LoadTest.Document.Plain
import LoadTest.Yaml.Cursor

set_option autoImplicit false

namespace LoadTest.Yaml

/-! ## Gaps -/

/-- Blanks and line breaks since the last character that counts. -/
inductive Gap where
  /-- Blanks only. -/
  | blanks (cs : List Char)
  /-- A first line break, unless it was made ineffective, and further ones. -/
  | breaks (first : Option Char) (more : List Char)

namespace Gap

/-- No gap. -/
def empty : Gap := .blanks []

/-- Whether there is no gap. -/
def isEmpty : Gap → Bool
  | .blanks cs => cs.isEmpty
  | .breaks .. => false

/-- Whether there are line breaks in a gap. -/
def isBroken : Gap → Bool
  | .blanks _ => false
  | .breaks .. => true

/-- A gap with one more blank. Blanks of later lines do not count. -/
def addBlank (c : Char) : Gap → Gap
  | .blanks cs => .blanks (cs ++ [c])
  | .breaks first more => .breaks first more

/-- A gap with one more line break. -/
def addBreak (c : Char) : Gap → Gap
  | .blanks _ => .breaks (some c) []
  | .breaks first more => .breaks first (more ++ [c])

/-- What a gap counts for when more of the scalar follows. -/
def text : Gap → List Char
  | .blanks cs => cs
  | .breaks (some '\n') [] => [' ']
  | .breaks (some '\n') more => more
  | .breaks first more => first.toList ++ more

@[simp] theorem text_empty : empty.text = [] := rfl

@[simp] theorem text_blanks (cs : List Char) : (blanks cs).text = cs := rfl

/-- A single line break counts as a space. -/
theorem text_addBreak_blanks (cs : List Char) : ((blanks cs).addBreak '\n').text = [' '] := rfl

/-- Of several line breaks the first one does not count. -/
theorem text_addBreak_breaks (c : Char) (more : List Char) :
    ((breaks (some '\n') more).addBreak c).text = more ++ [c] := by
  cases more <;> rfl

end Gap

/-- Put characters in front of what a scan has read. -/
def prepend {β : Type} (cs : List Char) (r : List Char × β) : List Char × β := (cs ++ r.1, r.2)

/-! ## Quoted scalars -/

/-- The character that an escape of one letter stands for. -/
def shortEscape? (c : Char) : Option Char :=
  match c with
  | '0' => some '\x00'
  | 'a' => some '\x07'
  | 'b' => some '\x08'
  | 't' => some '\t'
  | '\t' => some '\t'
  | 'n' => some '\n'
  | 'v' => some '\x0b'
  | 'f' => some '\x0c'
  | 'r' => some '\r'
  | 'e' => some '\x1b'
  | ' ' => some ' '
  | '"' => some '"'
  | '/' => some '/'
  | '\\' => some '\\'
  | 'N' => some '\x85'
  | '_' => some '\xa0'
  | 'L' => some '\u2028'
  | 'P' => some '\u2029'
  | _ => none

/-- The number of digits of a character given by its number. -/
def codeLength? (c : Char) : Option Nat :=
  match c with
  | 'x' => some 2
  | 'u' => some 4
  | 'U' => some 8
  | _ => none

/-- A character given by `n` hexadecimal digits. -/
def hexChar? (n : Nat) (cs : List Char) : Option Char :=
  if cs.length < n then none
  else match Plain.digits? 16 (cs.take n) with
    | some v => if v.isValidChar then some (Char.ofNat v) else none
    | none => none

/-- The character that an escape stands for, and the length of the escape; the
backslash has been read. -/
def escape? : List Char → Option (Char × Nat)
  | [] => none
  | c :: cs =>
    match shortEscape? c with
    | some a => some (a, 1)
    | none => do
      let n ← codeLength? c
      let a ← hexChar? n cs
      some (a, n + 1)

/-- The rest of a quoted scalar, with escapes if it is `double`, and the place
behind its closing mark. -/
def scanQuoted (double : Bool) : Nat → Gap → Cursor → Option (List Char × Cursor)
  | 0, _, _ => none
  | fuel + 1, gap, c =>
    match c.rest with
    | [] => none
    | a :: cs =>
      if isBlank a then scanQuoted double fuel (gap.addBlank a) (c.skip 1)
      else match c.nextLine? with
        | some (b, next) => scanQuoted double fuel (gap.addBreak b) next
        | none =>
          if c.atMarker then none
          else if double then
            if a = '"' then some (gap.text, c.skip 1)
            else if a = '\\' then
              match (c.skip 1).nextLine? with
              | some (_, next) =>
                (scanQuoted double fuel (.breaks none []) next).map (prepend gap.text)
              | none =>
                match escape? cs with
                | some (e, n) =>
                  (scanQuoted double fuel .empty (c.skip (n + 1))).map (prepend (gap.text ++ [e]))
                | none => none
            else (scanQuoted double fuel .empty (c.skip 1)).map (prepend (gap.text ++ [a]))
          else if a = '\'' then
            if cs.head? = some '\'' then
              (scanQuoted double fuel .empty (c.skip 2)).map (prepend (gap.text ++ [a]))
            else some (gap.text, c.skip 1)
          else (scanQuoted double fuel .empty (c.skip 1)).map (prepend (gap.text ++ [a]))

/-- A quoted scalar, from its opening mark on. `fuel` must exceed the number of
characters that are left. -/
def quotedScalar (double : Bool) (fuel : Nat) (c : Cursor) : Option (String × Cursor) :=
  (scanQuoted double fuel .empty (c.skip 1)).map fun r => (String.ofList r.1, r.2)

/-! ## Plain scalars -/

/-- A character that marks the structure of collections in brackets. -/
def isFlowMark (c : Char) : Bool := c == ',' || c == '[' || c == ']' || c == '{' || c == '}'

/-- Whether a plain scalar is at its end before the character `a`, with `cs`
behind it. Outside of brackets its lines must be indented by `indent`. -/
def endsPlain (flow : Bool) (indent : Nat) (gap : Gap) (c : Cursor) (a : Char) (cs : List Char) :
    Bool :=
  (!gap.isEmpty && ((!flow && c.column < indent) || a == '#')) || c.atMarker
    || (a == ':' && isGap cs) || (flow && isFlowMark a)

/-- The rest of a plain scalar, whether line breaks stand behind it, and the
place behind those. -/
def scanPlain (flow : Bool) (indent : Nat) :
    Nat → Gap → Cursor → Option (List Char × Bool × Cursor)
  | 0, _, _ => none
  | fuel + 1, gap, c =>
    match c.rest with
    | [] => some ([], gap.isBroken, c)
    | a :: cs =>
      if isBlank a then
        if gap.isBroken && c.column < indent && a == '\t' then none
        else scanPlain flow indent fuel (gap.addBlank a) (c.skip 1)
      else match c.nextLine? with
        | some (b, next) => scanPlain flow indent fuel (gap.addBreak b) next
        | none =>
          if endsPlain flow indent gap c a cs then some ([], gap.isBroken, c)
          else if flow && a == ':' && cs.head?.any (fun b => isFlowMark b || b == '?') then none
          else (scanPlain flow indent fuel .empty (c.skip 1)).map (prepend (gap.text ++ [a]))

/-- A plain scalar. `fuel` must exceed the number of characters that are left. -/
def plainScalar (flow : Bool) (indent : Nat) (fuel : Nat) (c : Cursor) :
    Option (String × Bool × Cursor) :=
  (scanPlain flow indent fuel .empty c).map fun r => (String.ofList r.1, r.2)

end LoadTest.Yaml
