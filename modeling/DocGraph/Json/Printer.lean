import DocGraph.Json.Basic

/-!
# Writing JSON

Values are written in two layouts. The compact one has no spaces; the indented one puts each item
and field on a line of its own, two spaces deeper than its bracket, and writes an empty array or
object as a bare pair of brackets.

In strings, the quote, the backslash and the characters below U+0020 are escaped, by their short
escape where they have one. All other characters stand as they are.

Writing never fails. That what is written can be read back is a matter of the value: it must have no
part that is written in place of another one, and no more brackets at once than a reader allows.
-/

namespace DocGraph.Json

/-- A hexadecimal digit, in lower case. -/
def hexChar (digit : Nat) : Char :=
  if digit < 10 then Char.ofNat ('0'.toNat + digit) else Char.ofNat ('a'.toNat + (digit - 10))

/-- The characters that stand for one character inside a string. So no character of a string can be
taken for its end. -/
def escapeChar (c : Char) : List Char :=
  if c = '"' then ['\\', '"']
  else if c = '\\' then ['\\', '\\']
  else if c = '\x08' then ['\\', 'b']
  else if c = '\x0c' then ['\\', 'f']
  else if c = '\n' then ['\\', 'n']
  else if c = '\r' then ['\\', 'r']
  else if c = '\t' then ['\\', 't']
  else if c.toNat < 0x20 then
    ['\\', 'u', '0', '0', hexChar (c.toNat / 16), hexChar (c.toNat % 16)]
  else [c]

/-- A string in quotes. Keys are written in the same way. -/
def quote (content : String) : List Char :=
  '"' :: content.toList.flatMap escapeChar ++ ['"']

/-- The characters of a value that has no parts. An unreadable part is written as null, and a
numeral whose value is not kept as zero with a fraction. Arrays and objects are only listed here as
empty ones. -/
def scalarChars : Json → List Char
  | null => "null".toList
  | bool true => "true".toList
  | bool false => "false".toList
  | natural value => Nat.toDigits 10 value
  | numeral => "0.0".toList
  | text content => quote content
  | array _ => "[]".toList
  | object _ => ['{', '}']
  | unreadable => "null".toList

mutual

/-- The compact layout. It is the shorter of the two and is meant for programs. -/
def compactChars : Json → List Char
  | array items => '[' :: compactItems items ++ [']']
  | object fields => '{' :: compactFields fields ++ ['}']
  | scalar => scalarChars scalar

/-- Items with a comma between neighbours. -/
def compactItems : List Json → List Char
  | [] => []
  | [last] => compactChars last
  | first :: second :: rest => compactChars first ++ ',' :: compactItems (second :: rest)

/-- Fields with a comma between neighbours. -/
def compactFields : List (String × Json) → List Char
  | [] => []
  | [(key, value)] => quote key ++ ':' :: compactChars value
  | (key, value) :: second :: rest =>
    quote key ++ ':' :: compactChars value ++ ',' :: compactFields (second :: rest)

end

/-- A line feed and the indentation of the given depth. It stands in front of every part and in
front of the closing bracket. -/
def newLine (depth : Nat) : List Char := '\n' :: List.replicate (2 * depth) ' '

mutual

/-- The indented layout of a value that starts at the given depth. It is meant for readers. -/
def indentedChars (depth : Nat) : Json → List Char
  | array [] => ['[', ']']
  | array (first :: rest) =>
    '[' :: indentedItems (depth + 1) (first :: rest) ++ newLine depth ++ [']']
  | object [] => ['{', '}']
  | object (first :: rest) =>
    '{' :: indentedFields (depth + 1) (first :: rest) ++ newLine depth ++ ['}']
  | scalar => scalarChars scalar

/-- Items, each on its own line. -/
def indentedItems (depth : Nat) : List Json → List Char
  | [] => []
  | [last] => newLine depth ++ indentedChars depth last
  | first :: second :: rest =>
    newLine depth ++ indentedChars depth first ++ ',' :: indentedItems depth (second :: rest)

/-- Fields, each on its own line. -/
def indentedFields (depth : Nat) : List (String × Json) → List Char
  | [] => []
  | [(key, value)] => newLine depth ++ quote key ++ ':' :: ' ' :: indentedChars depth value
  | (key, value) :: second :: rest =>
    newLine depth ++ quote key ++ ':' :: ' ' :: indentedChars depth value ++
      ',' :: indentedFields depth (second :: rest)

end

/-- The compact text of a value. -/
def compact (value : Json) : String := String.ofList value.compactChars

/-- The indented text of a value. -/
def indented (value : Json) : String := String.ofList (value.indentedChars 0)

end DocGraph.Json
