import Schemata.Json.Value
import Schemata.Text.Visible

/-!
# YAML values

A YAML value is a tree of scalars, sequences and mappings, any of which may carry a local tag.
A mapping is the list of its entries; its keys are values of any kind, no two of them equal.
-/

namespace Schemata.Yaml

/-- A number: every number of JSON, and the floats that are not finite. -/
inductive Number where
  | finite (n : Json.Number)
  | infinity (negative : Bool)
  | nan
  deriving DecidableEq, Repr

namespace Number

/-- Whole numbers and floats are never equal to each other; the two zeros are. -/
def equal : Number → Number → Bool
  | finite (.whole a _), finite (.whole b _) => a == b
  | finite (.float x), finite (.float y) => x.sameValue y
  | infinity a, infinity b => a == b
  | nan, nan => true
  | _, _ => false

/-- The text of a number. -/
def text : Number → String
  | finite n => n.text .unsigned
  | infinity negative => if negative then "-.inf" else ".inf"
  | nan => ".nan"

end Number

/-- A YAML value. -/
inductive Value where
  | null
  | bool (b : Bool)
  | number (n : Number)
  | string (s : String)
  | sequence (items : List Value)
  | mapping (entries : List (Value × Value))
  | tagged (tag : String) (value : Value)
  deriving Repr, Inhabited

namespace Value

mutual

/-- Equality; the order of the entries of a mapping does not matter. -/
def equal : Value → Value → Bool
  | null, null => true
  | bool a, bool b => a == b
  | number a, number b => a.equal b
  | string a, string b => a == b
  | sequence xs, sequence ys => xs.length == ys.length && equalItems xs ys
  | mapping xs, mapping ys => xs.length == ys.length && equalEntries xs ys
  | tagged s x, tagged t y => s == t && equal x y
  | _, _ => false

/-- The items of the first list equal those of the second, up to the shorter of the two. -/
def equalItems : List Value → List Value → Bool
  | x :: xs, y :: ys => equal x y && equalItems xs ys
  | _, _ => true

/-- Every entry of the first list has an equal one in the second. -/
def equalEntries : List (Value × Value) → List (Value × Value) → Bool
  | [], _ => true
  | (k, x) :: xs, ys => (ys.any fun (l, y) => equal k l && equal x y) && equalEntries xs ys

end

/-! ## Values in messages -/

/-- A key of a mapping that is shown without its kind. -/
def bareKey? : Value → Option (List Char)
  | bool b => some (if b then "true".toList else "false".toList)
  | number n => some n.text.toList
  | string s => some (Text.shown s)
  | _ => none

mutual

/-- The characters that show a value, with its kind. -/
def shownChars : Value → List Char
  | null => "Null".toList
  | bool b => if b then "Bool(true)".toList else "Bool(false)".toList
  | number n => "Number(".toList ++ n.text.toList ++ [')']
  | string s => "String(".toList ++ Text.shown s ++ [')']
  | sequence items => "Sequence [".toList ++ shownItems items ++ [']']
  | mapping entries => "Mapping \x7b".toList ++ shownEntries entries ++ ['\x7d']
  | tagged tag value =>
    "TaggedValue \x7b tag: !".toList ++ tag.toList ++ ", value: ".toList ++ shownChars value ++
      " \x7d".toList

/-- Items separated by commas. -/
def shownItems : List Value → List Char
  | [] => []
  | [v] => shownChars v
  | v :: rest => shownChars v ++ ", ".toList ++ shownItems rest

/-- Entries separated by commas. -/
def shownEntries : List (Value × Value) → List Char
  | [] => []
  | [(k, v)] => (bareKey? k).getD (shownChars k) ++ ": ".toList ++ shownChars v
  | (k, v) :: rest =>
    (bareKey? k).getD (shownChars k) ++ ": ".toList ++ shownChars v ++ ", ".toList ++
      shownEntries rest

end

/-- The text that shows a value. -/
def shown (v : Value) : String :=
  String.ofList v.shownChars

end Value
end Schemata.Yaml
