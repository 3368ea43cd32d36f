import Schemata.Json.Reader
import Schemata.Yaml.Token
import Schemata.Yaml.Value

/-!
# What a plain scalar stands for

Without quotes and without a tag the text of a scalar decides its kind: nothing, a truth value, a
whole number, a float, or else a string.
-/

namespace Schemata.Yaml

/-- The words for nothing. -/
def isNullWord (text : String) : Bool :=
  text = "null" || text = "Null" || text = "NULL" || text = "~"

/-- The words for truth values. -/
def readBool? (text : String) : Option Bool :=
  if text = "true" ∨ text = "True" ∨ text = "TRUE" then some true
  else if text = "false" ∨ text = "False" ∨ text = "FALSE" then some false
  else none

/-! ## Whole numbers -/

/-- The number that digits of a base denote; there must be one at least. -/
def readDigits? (base : Nat) (digits : List Char) : Option Nat :=
  if digits.isEmpty then none
  else do
    let values ← digits.mapM Json.hexValue?
    if values.all (· < base) then some (values.foldl (fun n d => base * n + d) 0) else none

/-- Zeros in front of further digits make a text that is no number. -/
def isPaddedDigits : List Char → Bool
  | '0' :: rest => !rest.isEmpty && rest.all Char.isDigit
  | _ => false

/-- The magnitude of a whole number: hexadecimal, octal or binary digits behind a mark, or decimal
digits. -/
def readMagnitude? : List Char → Option Nat
  | '0' :: 'x' :: digits => readDigits? 16 digits
  | '0' :: 'o' :: digits => readDigits? 8 digits
  | '0' :: 'b' :: digits => readDigits? 2 digits
  | digits => if isPaddedDigits digits then none else readDigits? 10 digits

/-- A whole number with an optional sign, of any size. -/
def readWhole? : List Char → Option Int
  | '-' :: rest => (readMagnitude? rest).map fun n => -(n : Int)
  | '+' :: rest => (readMagnitude? rest).map Int.ofNat
  | rest => (readMagnitude? rest).map Int.ofNat

/-- Whole numbers have 128 bits; those that are larger are read as floats. -/
def wholeInRange (n : Int) : Bool :=
  -170141183460469231731687303715884105728 ≤ n && n ≤ 340282366920938463463374607431768211455

/-! ## Floats -/

/-- The digits of a decimal without its point, and how many of them stand behind it. -/
def readDecimal? (text : List Char) : Option (Nat × Nat × List Char) :=
  let whole := text.takeWhile Char.isDigit
  let rest := text.drop whole.length
  let (fraction, rest) := match rest with
    | '.' :: behind => (behind.takeWhile Char.isDigit, behind.dropWhile Char.isDigit)
    | _ => ([], rest)
  match readDigits? 10 (whole ++ fraction) with
  | some n => some (n, fraction.length, rest)
  | none => none

/-- The exponent behind a decimal; it is zero at the end of the text. -/
def readExponent? : List Char → Option Int
  | [] => some 0
  | e :: rest =>
    if e = 'e' ∨ e = 'E' then
      match rest with
      | '-' :: digits => (readDigits? 10 digits).map fun n => -(n : Int)
      | '+' :: digits => (readDigits? 10 digits).map Int.ofNat
      | digits => (readDigits? 10 digits).map Int.ofNat
    else none

/-- The float nearest to a decimal number, unless that is infinite.  Exponents far outside the
range of floats are not computed with. -/
def nearest? (negative : Bool) (digits : Nat) (exponent : Int) : Option Binary64 :=
  let leading := exponent + (Nat.repr digits).length
  if digits = 0 ∨ leading < -400 then some (.zero negative)
  else if 400 < leading then none
  else Binary64.ofDecimal? negative digits exponent

/-- A finite float in decimal notation. -/
def readFinite? (text : List Char) : Option Binary64 := do
  let (negative, text) := match text with
    | '-' :: rest => (true, rest)
    | '+' :: rest => (false, rest)
    | _ => (false, text)
  let (digits, places, rest) ← readDecimal? text
  let exponent ← readExponent? rest
  nearest? negative digits (exponent - places)

/-- The words for infinity. -/
def isInfinityWord (text : String) : Bool :=
  text = ".inf" || text = ".Inf" || text = ".INF" ||
    text = "+.inf" || text = "+.Inf" || text = "+.INF"

/-- The words for negative infinity. -/
def isNegativeInfinityWord (text : String) : Bool :=
  text = "-.inf" || text = "-.Inf" || text = "-.INF"

/-- The words for what is no number. -/
def isNanWord (text : String) : Bool :=
  text = ".nan" || text = ".NaN" || text = ".NAN"

/-- A float. -/
def readFloat? (text : String) : Option Number :=
  if isInfinityWord text then some (.infinity false)
  else if isNegativeInfinityWord text then some (.infinity true)
  else if isNanWord text then some .nan
  else (readFinite? text.toList).map fun x => .finite (.float x)

/-- The text is a sign or nothing and then digits that are no number. -/
def isPadded (text : String) : Bool :=
  match text.toList with
  | '-' :: rest => isPaddedDigits rest
  | '+' :: rest => isPaddedDigits rest
  | rest => isPaddedDigits rest

/-! ## Scalars -/

/-- A whole number as a value; `none` behind `some` is one that no value can hold. -/
def wholeValue? (text : String) : Option (Option Value) :=
  match readWhole? text.toList with
  | some n =>
    if wholeInRange n then some ((Json.Number.ofInt? n).map fun n => .number (.finite n)) else none
  | none => none

/-- The value of a plain scalar; `none` for a whole number that no value can hold. -/
def resolvePlain? (text : String) : Option Value :=
  if text = "" || isNullWord text then some .null
  else
    match readBool? text with
    | some b => some (.bool b)
    | none =>
      match wholeValue? text with
      | some v => v
      | none =>
        match if isPadded text then none else readFloat? text with
        | some n => some (.number n)
        | none => some (.string text)

/-- The tags of the core schema that name the kind of a scalar. -/
inductive CoreTag where
  | bool
  | int
  | float
  | null
  deriving DecidableEq, Repr

/-- The core tag with a given text. -/
def CoreTag.ofText? (tag : String) : Option CoreTag :=
  if tag = "tag:yaml.org,2002:bool" then some .bool
  else if tag = "tag:yaml.org,2002:int" then some .int
  else if tag = "tag:yaml.org,2002:float" then some .float
  else if tag = "tag:yaml.org,2002:null" then some .null
  else none

/-- The value of a scalar with a core tag, whose text must be one of its kind. -/
def CoreTag.resolve? (text : String) : CoreTag → Option Value
  | bool => (readBool? text).map .bool
  | int => (wholeValue? text).join
  | float => (readFloat? text).map .number
  | null => if isNullWord text then some .null else none

/-- The value of a scalar.  A tag that is not one of the core tags makes it a string. -/
def resolveScalar? (tag : Option String) (style : Style) (text : String) : Option Value :=
  match tag with
  | some tag =>
    match CoreTag.ofText? tag with
    | some core => core.resolve? text
    | none => some (.string text)
  | none => if style = .plain then resolvePlain? text else some (.string text)

end Schemata.Yaml
