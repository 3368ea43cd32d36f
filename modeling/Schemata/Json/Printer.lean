import Schemata.Json.Value

/-!
# Writing JSON text

`Value.compact` writes no blanks at all; `Value.pretty` puts every item and member on a line of
its own, two blanks deeper than its container, and an empty container stays `[]` or `{}`.
-/

namespace Schemata.Json

/-- The hexadecimal digit of a number below sixteen. -/
def hexDigit (n : Nat) : Char :=
  Nat.digitChar n

/-- A character inside a string literal: quotes, backslashes and control characters are escaped,
everything else stands for itself. -/
def escapeChar (c : Char) : List Char :=
  if c = '"' then ['\\', '"']
  else if c = '\\' then ['\\', '\\']
  else if c = '\n' then ['\\', 'n']
  else if c = '\r' then ['\\', 'r']
  else if c = '\t' then ['\\', 't']
  else if c = '\x08' then ['\\', 'b']
  else if c = '\x0c' then ['\\', 'f']
  else if c < ' ' then
    ['\\', 'u', '0', '0', hexDigit (c.toNat / 16), hexDigit (c.toNat % 16)]
  else [c]

/-- A string literal. -/
def quote (s : String) : List Char :=
  '"' :: s.toList.flatMap escapeChar ++ ['"']

namespace Value

mutual

/-- The characters of the compact text. -/
def compactChars : Value → List Char
  | null => "null".toList
  | bool b => if b then "true".toList else "false".toList
  | number n => (n.text .json).toList
  | string s => quote s
  | array items => '[' :: compactItems items ++ [']']
  | object members => '\x7b' :: compactMembers members ++ ['\x7d']

/-- Items separated by commas. -/
def compactItems : List Value → List Char
  | [] => []
  | [v] => compactChars v
  | v :: rest => compactChars v ++ ',' :: compactItems rest

/-- Members separated by commas. -/
def compactMembers : List (String × Value) → List Char
  | [] => []
  | [(k, v)] => quote k ++ ':' :: compactChars v
  | (k, v) :: rest => quote k ++ ':' :: compactChars v ++ ',' :: compactMembers rest

end

/-- The text without blanks. -/
def compact (v : Value) : String :=
  String.ofList v.compactChars

/-- A line break and the indentation of the given depth. -/
def lineBreak (depth : Nat) : List Char :=
  '\n' :: List.replicate (2 * depth) ' '

mutual

/-- The characters of the indented text, for a value at the given depth. -/
def prettyChars (depth : Nat) : Value → List Char
  | array [] => ['[', ']']
  | array (v :: rest) =>
    '[' :: lineBreak (depth + 1) ++ prettyChars (depth + 1) v ++
      prettyItems (depth + 1) rest ++ lineBreak depth ++ [']']
  | object [] => ['\x7b', '\x7d']
  | object ((k, v) :: rest) =>
    '\x7b' :: lineBreak (depth + 1) ++ quote k ++ ':' :: ' ' :: prettyChars (depth + 1) v ++
      prettyMembers (depth + 1) rest ++ lineBreak depth ++ ['\x7d']
  | null => compactChars null
  | bool b => compactChars (bool b)
  | number n => compactChars (number n)
  | string s => compactChars (string s)

/-- The items after the first one. -/
def prettyItems (depth : Nat) : List Value → List Char
  | [] => []
  | v :: rest => ',' :: lineBreak depth ++ prettyChars depth v ++ prettyItems depth rest

/-- The members after the first one. -/
def prettyMembers (depth : Nat) : List (String × Value) → List Char
  | [] => []
  | (k, v) :: rest =>
    ',' :: lineBreak depth ++ quote k ++ ':' :: ' ' :: prettyChars depth v ++
      prettyMembers depth rest

end

/-- The indented text. -/
def pretty (v : Value) : String :=
  String.ofList (v.prettyChars 0)

end Value
end Schemata.Json
