import Schemata.Text.Split

/-!
# Sets of characters as data

Tables of the Unicode character database are kept as text.  A set of characters is written as
tokens `gap+count`: skip so many code points, then take so many; `*n` behind a token repeats it.
A partition of all code points is written as tokens of a code and the length of its run.
-/

namespace Schemata.Unicode

/-- `count` code points from `first` on. -/
structure Range where
  first : Nat
  count : Nat
  deriving DecidableEq, Repr

/-- Ranges of code points in ascending order. -/
abbrev Ranges := List Range

/-- The character lies in one of the ranges. -/
def Ranges.contains (rs : Ranges) (c : Char) : Bool :=
  rs.any fun r => r.first ≤ c.toNat && c.toNat < r.first + r.count

/-- The number that decimal digits denote. -/
def number (digits : List Char) : Nat :=
  digits.foldl (fun n c => 10 * n + (c.toNat - 48)) 0

/-- The tokens of a table, which stand between blanks and line breaks. -/
def tokens (table : String) : List (List Char) :=
  ((Text.splitAt ' ' table.toList).flatMap (Text.splitAt '\n')).filter fun token => !token.isEmpty

/-- The numbers before and behind a sign; the second one is `1` if the sign is missing. -/
def pairAt (sign : Char) (token : List Char) : List Char × Nat :=
  match Text.splitAt sign token with
  | [first, second] => (first, number second)
  | _ => (token, 1)

/-- Takes `repeats` ranges of a gap and a count each, from a code point on. -/
def repeatRange (gap count : Nat) : Nat → Nat → Ranges
  | _, 0 => []
  | from_, repeats + 1 =>
    ⟨from_ + gap, count⟩ :: repeatRange gap count (from_ + gap + count) repeats

/-- The ranges that the tokens of a set describe, from a code point on. -/
def decodeFrom : Nat → List (List Char) → Ranges
  | _, [] => []
  | from_, token :: rest =>
    let (range, repeats) := pairAt '*' token
    let (gap, count) := pairAt '+' range
    repeatRange (number gap) count from_ repeats ++
      decodeFrom (from_ + repeats * (number gap + count)) rest

/-- The ranges of a set of characters. -/
def Ranges.decode (table : String) : Ranges :=
  decodeFrom 0 (tokens table)

/-- The code and the length of a run. -/
def decodeRun (token : List Char) : String × Nat :=
  (String.ofList (token.takeWhile Char.isAlpha), number (token.dropWhile Char.isAlpha))

/-- The runs of a partition. -/
def decodeRuns (table : String) : List (String × Nat) :=
  (tokens table).map decodeRun

/-- The code of the run that holds a code point. -/
def runAt : List (String × Nat) → Nat → Option String
  | [], _ => none
  | (code, count) :: rest, n => if n < count then some code else runAt rest (n - count)

end Schemata.Unicode
