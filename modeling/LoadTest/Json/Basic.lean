/-
JSON values, and how they are printed.

Printing is compact: no blank anywhere, members in their order, and in texts
only what must be escaped. Every value that is printed here consists of texts,
integers, truth values, null, arrays and objects.
-/
import LoadTest.Text.Decimal
import LoadTest.Text.Quoted

set_option autoImplicit false

namespace LoadTest

/-- A value to be printed. -/
inductive Json where
  | null
  | bool (b : Bool)
  | integer (n : Int)
  | text (s : String)
  | array (items : List Json)
  | object (members : List (String × Json))

namespace Json

/-- A character of a text: as it is, unless it is a quotation mark, a backslash
or a control. -/
def escape (c : Char) : List Char :=
  if c = '"' then ['\\', '"']
  else if c = '\\' then ['\\', '\\']
  else if c = '\x08' then ['\\', 'b']
  else if c = '\t' then ['\\', 't']
  else if c = '\n' then ['\\', 'n']
  else if c = '\x0c' then ['\\', 'f']
  else if c = '\r' then ['\\', 'r']
  else if c.toNat < 32 then
    ['\\', 'u', '0', '0', Quoted.hexDigit (c.toNat / 16), Quoted.hexDigit (c.toNat % 16)]
  else [c]

/-- A text between quotation marks. -/
def quote (s : String) : List Char := '"' :: (s.toList.flatMap escape ++ ['"'])

mutual
/-- The characters of a value. -/
def chars : Json → List Char
  | null => ['n', 'u', 'l', 'l']
  | bool true => ['t', 'r', 'u', 'e']
  | bool false => ['f', 'a', 'l', 's', 'e']
  | integer n => Decimal.intDigits n
  | text s => quote s
  | array items => '[' :: (charsItems items ++ [']'])
  | object members => '{' :: (charsMembers members ++ ['}'])

/-- Elements with commas between them. -/
def charsItems : List Json → List Char
  | [] => []
  | [j] => chars j
  | j :: js => chars j ++ ',' :: charsItems js

/-- Members with commas between them. -/
def charsMembers : List (String × Json) → List Char
  | [] => []
  | [(k, j)] => quote k ++ ':' :: chars j
  | (k, j) :: ms => quote k ++ ':' :: (chars j ++ ',' :: charsMembers ms)
end

/-- A value as text. -/
def print (j : Json) : String := String.ofList (chars j)

end Json

end LoadTest
