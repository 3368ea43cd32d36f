import Schemata.Unicode.CaseFolding
import Schemata.Unicode.Category
import Schemata.Unicode.Property
import Schemata.Unicode.Script

/-!
# Sets of characters in patterns

A set is its membership test.  Besides the set operations this module has the named sets of
patterns: digits, blanks and word characters, the bracketed ASCII names, and the sets that a
property of the Unicode character database selects by a name, or by a name and a value.
-/

namespace Schemata.Pattern

/-- A set of characters. -/
abbrev CharSet := Char → Bool

namespace CharSet

def empty : CharSet := fun _ => false

def union (s t : CharSet) : CharSet := fun c => s c || t c

def inter (s t : CharSet) : CharSet := fun c => s c && t c

def diff (s t : CharSet) : CharSet := fun c => s c && !t c

def symmDiff (s t : CharSet) : CharSet := fun c => s c != t c

/-- The complement, if asked for. -/
def negateIf (negated : Bool) (s : CharSet) : CharSet := fun c => s c != negated

/-- The characters between two, both included. -/
def range (low high : Char) : CharSet := fun c => low ≤ c && c ≤ high

/-- With every character also those that differ from it in case only. -/
def foldCase (s : CharSet) : CharSet := fun c => s c || (Unicode.caseVariants c).any s

/-- With every ASCII letter also the one that differs from it in case only. -/
def foldAsciiCase (s : CharSet) : CharSet :=
  fun c => s c || (c.isUpper && s c.toLower) || (c.isLower && s c.toUpper)

end CharSet

/-- Decimal digits of all scripts. -/
def isDigit : CharSet := Unicode.isCategory "Nd"

/-- Blanks of all scripts. -/
def isSpace : CharSet := Unicode.Property.whiteSpace.contains

/-- Letters, marks, decimal digits, connectors and joiners of all scripts. -/
def isWord : CharSet := fun c =>
  Unicode.Property.alphabetic.contains c || Unicode.isCategory "M" c ||
    Unicode.isCategory "Nd" c || Unicode.isCategory "Pc" c ||
    Unicode.Property.joinControl.contains c

/-- The sets with a letter of their own. -/
inductive Shorthand where
  | digit
  | space
  | word
  deriving DecidableEq, Repr

namespace Shorthand

/-- The set over all scripts. -/
def set : Shorthand → CharSet
  | digit => isDigit
  | space => isSpace
  | word => isWord

/-- The set within ASCII. -/
def asciiSet : Shorthand → CharSet
  | digit => .range '0' '9'
  | space => fun c => c = ' ' || CharSet.range '\t' '\r' c
  | word => fun c => c.isAlphanum || c = '_'

end Shorthand

/-- The bracketed ASCII sets by name. -/
def asciiSets : List (String × CharSet) :=
  [("alnum", fun c => c.isAlphanum),
    ("alpha", fun c => c.isAlpha),
    ("ascii", .range '\x00' '\x7f'),
    ("blank", fun c => c = ' ' || c = '\t'),
    ("cntrl", fun c => CharSet.range '\x00' '\x1f' c || c = '\x7f'),
    ("digit", .range '0' '9'),
    ("graph", .range '!' '~'),
    ("lower", .range 'a' 'z'),
    ("print", .range ' ' '~'),
    ("punct", fun c => CharSet.range '!' '~' c && !c.isAlphanum),
    ("space", Shorthand.space.asciiSet),
    ("upper", .range 'A' 'Z'),
    ("word", Shorthand.word.asciiSet),
    ("xdigit", fun c =>
      CharSet.range '0' '9' c || CharSet.range 'a' 'f' c || CharSet.range 'A' 'F' c)]

/-! ## Properties -/

/-- Property names are compared without case, blanks, hyphens, underscores and a leading `is`;
`isc` means the category `c` only when the `is` is taken off. -/
def normalizeName (name : List Char) : String :=
  let keep := fun (cs : List Char) =>
    (cs.filter fun c => c != ' ' && c != '_' && c != '-' && c.toNat < 0x80).map Char.toLower
  match name with
  | first :: second :: rest =>
    if first.toLower = 'i' ∧ second.toLower = 's' then
      let kept := keep rest
      if kept = ['c'] then "isc" else String.ofList kept
    else String.ofList (keep name)
  | _ => String.ofList (keep name)

/-- The set of a general category, or of one of the three sets that count as such. -/
def categorySet? (name : String) : Option CharSet :=
  if name = "any" then some fun _ => true
  else if name = "assigned" then some fun c => !Unicode.isCategory "Cn" c
  else if name = "ascii" then some (.range '\x00' '\x7f')
  else (Unicode.categoryNames.lookup name).map fun codes c => codes.any (Unicode.isCategory · c)

/-- The set of a script. -/
def scriptSet? (name : String) : Option CharSet :=
  (Unicode.scriptNames.lookup name).map fun code c => Unicode.scriptCode c == code

/-- The set of the characters used with a script. -/
def extensionSet? (name : String) : Option CharSet :=
  (Unicode.scriptNames.lookup name).map fun code c => (Unicode.scriptExtensions c).contains code

/-- The set of a binary property. -/
def binarySet? (name : String) : Option CharSet :=
  (Unicode.Property.byName.lookup name).map Unicode.Ranges.contains

/-- The set that a lone name selects: a binary property, a category or a script, in this order. -/
def namedSet? (name : List Char) : Option CharSet :=
  let name := normalizeName name
  (binarySet? name).orElse fun _ => (categorySet? name).orElse fun _ => scriptSet? name

/-- The set that the value of a property selects. -/
def valuedSet? (name value : List Char) : Option CharSet :=
  let name := normalizeName name
  let value := normalizeName value
  if name = "generalcategory" ∨ name = "gc" then categorySet? value
  else if name = "script" ∨ name = "sc" then scriptSet? value
  else if name = "scriptextensions" ∨ name = "scx" then extensionSet? value
  else none

end Schemata.Pattern
