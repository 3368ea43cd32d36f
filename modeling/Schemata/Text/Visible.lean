import Schemata.Unicode.Category
import Schemata.Unicode.Property

/-!
# Quoted text for messages

A message shows a text in double quotes.  Quotes, backslashes and everything that would not be
seen as a character of its own are escaped.
-/

namespace Schemata.Text

/-- The character can be shown: it is no control, format, private or unassigned character and no
separator other than the blank. -/
def isPrintable (c : Char) : Bool :=
  c = ' ' ||
    !(["Cc", "Cf", "Cs", "Co", "Cn", "Zl", "Zp", "Zs"].contains (Unicode.categoryCode c))

/-- The character by its number in hexadecimal digits. -/
def escapeNumber (c : Char) : List Char :=
  ['\\', 'u', '\x7b'] ++ Nat.toDigits 16 c.toNat ++ ['\x7d']

/-- A character inside quotes.  Marks that would join the character before them are escaped. -/
def showChar (c : Char) : List Char :=
  if c = '\x00' then ['\\', '0']
  else if c = '\t' then ['\\', 't']
  else if c = '\n' then ['\\', 'n']
  else if c = '\r' then ['\\', 'r']
  else if c = '"' then ['\\', '"']
  else if c = '\\' then ['\\', '\\']
  else if c.toNat < 0x7F ∧ ' ' ≤ c then [c]
  else if Unicode.Property.graphemeExtend.contains c || !isPrintable c then escapeNumber c
  else [c]

/-- The text in quotes. -/
def shown (s : String) : List Char :=
  '"' :: s.toList.flatMap showChar ++ ['"']

end Schemata.Text
