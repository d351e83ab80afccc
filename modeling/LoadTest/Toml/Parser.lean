/-
Reading TOML texts.

A text is a list of lines: blank ones, entries, and headers of tables. It is
well formed as a whole or not at all. Tables keep the order of the text. A
date-time is a map with a single member of its own.
-/
import LoadTest.Toml.DateTime
import LoadTest.Toml.Lexeme
import LoadTest.Toml.Number
import LoadTest.Toml.Table

set_option autoImplicit false

namespace LoadTest.Toml

/-! ## Values -/

/-- The member that a date-time consists of. -/
def dateTimeKey : String := "$__toml_private_datetime"

/-- A date-time as a document. -/
def dateTimeDocument (d : DateTime) : Document := .map [(.text dateTimeKey, .text d.text)] true

/-- A truth value. -/
def scanBool : List Char → Option (Document × List Char)
  | 't' :: 'r' :: 'u' :: 'e' :: cs => some (.bool true, cs)
  | 'f' :: 'a' :: 'l' :: 's' :: 'e' :: cs => some (.bool false, cs)
  | _ => none

/-- A value that is no collection. -/
def scanScalar (fuel : Nat) (cs : List Char) : Option (Document × List Char) :=
  match scanQuoted fuel cs with
  | some r => some (.text (String.ofList r.1), r.2)
  | none =>
    match scanBool cs with
    | some r => some r
    | none =>
      match DateTime.scan .value cs with
      | some r => some (dateTimeDocument r.1, r.2)
      | none => scanNumber cs

mutual
/-- The value at the beginning of a text, below `depth` collections. -/
def scanValue : Nat → Nat → List Char → Option (Document × List Char)
  | 0, _, _ => none
  | fuel + 1, depth, cs =>
    match cs with
    | '[' :: rest =>
      if depthLimit ≤ depth + 1 then none
      else (scanItems fuel (depth + 1) rest).map fun r => (.sequence r.1 true, r.2)
    | '{' :: rest =>
      if depthLimit ≤ depth + 1 then none
      else match skipBlanks rest with
        | '}' :: rest => some (.map [] true, rest)
        | rest =>
          (scanEntries fuel (depth + 1) [] rest).map fun r =>
            (.map (Item.entriesToMembers r.1) true, r.2)
    | cs => scanScalar (fuel + 1) cs

/-- The elements of an array up to its closing bracket. A comma may stand
behind the last one. -/
def scanItems : Nat → Nat → List Char → Option (List Document × List Char)
  | 0, _, _ => none
  | fuel + 1, depth, cs =>
    match skipGap (fuel + 1) cs with
    | ']' :: rest => some ([], rest)
    | cs => do
      let v ← scanValue fuel depth cs
      match skipGap (fuel + 1) v.2 with
      | ']' :: rest => some ([v.1], rest)
      | ',' :: rest => (scanItems fuel depth rest).map fun r => (v.1 :: r.1, r.2)
      | _ => none

/-- The entries of a table that is written as a value, up to its closing
brace. It stands on one line. -/
def scanEntries : Nat → Nat → Entries → List Char → Option (Entries × List Char)
  | 0, _, _, _ => none
  | fuel + 1, depth, es, cs => do
    let k ← scanKey (fuel + 1) cs
    match k.2 with
    | '=' :: rest =>
      let v ← scanValue fuel depth (skipBlanks rest)
      let es ← es.put k.1.1 k.1.2 v.1
      match skipBlanks v.2 with
      | '}' :: rest => some (es, rest)
      | ',' :: rest => scanEntries fuel depth es rest
      | _ => none
    | _ => none
end

/-! ## Tables that begin like date-times

A written table may have the member that a date-time consists of. As its first
member it makes the table a date-time, or else a table that means nothing. -/

/-- Whether the value of this member is a date-time. -/
def isDateTimeText : Document → Bool
  | .text s => DateTime.isText s
  | _ => false

mutual
/-- Whether all tables that begin like date-times are such. -/
def datesAreSound : Document → Bool
  | .map ((.text key, v) :: members) _ =>
    if key == dateTimeKey then isDateTimeText v
    else datesAreSound v && datesOfMembersAreSound members
  | .sequence items _ => datesOfItemsAreSound items
  | _ => true

/-- Whether all such tables among elements are date-times. -/
def datesOfItemsAreSound : List Document → Bool
  | [] => true
  | d :: ds => datesAreSound d && datesOfItemsAreSound ds

/-- Whether all such tables among members are date-times. -/
def datesOfMembersAreSound : List (Document × Document) → Bool
  | [] => true
  | (_, v) :: ms => datesAreSound v && datesOfMembersAreSound ms
end

/-! ## Lines -/

/-- A line with an entry. -/
def scanEntryLine (fuel : Nat) (b : Builder) (cs : List Char) :
    Option (Builder × List Char) := do
  let k ← scanKey fuel cs
  match k.2 with
  | '=' :: rest =>
    let v ← scanValue (2 * fuel) 0 (skipBlanks rest)
    let b ← b.put k.1.1 k.1.2 v.1
    let rest ← lineEnd? v.2
    some (b, rest)
  | _ => none

/-- A line with the header of a table; the opening brackets have been read. -/
def scanHeaderLine (fuel : Nat) (b : Builder) (several : Bool) (cs : List Char) :
    Option (Builder × List Char) := do
  let k ← scanKey fuel cs
  let rest ← match several, k.2 with
    | false, ']' :: rest => some rest
    | true, ']' :: ']' :: rest => some rest
    | _, _ => none
  let b ← if several then b.openTables k.1.1 k.1.2 else b.openTable k.1.1 k.1.2
  let rest ← lineEnd? rest
  some (b, rest)

/-- Lines up to the end of the text, in steps that exceed the number of
characters; each line takes at least one of them. -/
def scanLines : Nat → Builder → List Char → Option Builder
  | 0, _, _ => none
  | fuel + 1, b, cs =>
    match skipBlanks cs with
    | [] => some b
    | '#' :: rest => do
      let rest ← lineEnd? ('#' :: rest)
      scanLines fuel b rest
    | '[' :: '[' :: rest => do
      let r ← scanHeaderLine (fuel + 1) b true rest
      scanLines fuel r.1 r.2
    | '[' :: rest => do
      let r ← scanHeaderLine (fuel + 1) b false rest
      scanLines fuel r.1 r.2
    | cs =>
      match newline? cs with
      | some rest => scanLines fuel b rest
      | none => do
        let r ← scanEntryLine (fuel + 1) b cs
        scanLines fuel r.1 r.2

/-- The text behind a byte-order mark. -/
def skipMark : List Char → List Char
  | c :: cs => if c.toNat = 0xFEFF then cs else c :: cs
  | [] => []

/-- The document of a text that is well formed. -/
def parse (cs : List Char) : Option Document := do
  let b ← scanLines (cs.length + 1) .start (skipMark cs)
  let es ← b.finish
  some (.map (Item.entriesToMembers es) true)

end LoadTest.Toml
