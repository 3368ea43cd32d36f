/-!
# Finite double-precision numbers as exact data

A finite binary64 number is a sign, a significand below `2 ^ 53` and a binary exponent.  Each
datum is stored in its one canonical form, so equality of the structure is equality of the
datum (the two zeros stay apart), while `scaled` gives its exact value as an integer multiple
of the least positive number `2 ^ -1074`.

`ofRatio?` rounds an exact fraction to the nearest datum, ties to the even significand, and
answers `none` when the result would be infinite.  Products and quotients are the exact results
rounded once.
-/

namespace Schemata

/-- The leading bit of a significand, `2 ^ 52`. -/
abbrev Binary64.hiddenBit : Nat := 4503599627370496

/-- The canonical parts: the leading bit is set, or the exponent is the least one. -/
abbrev Binary64.IsCanonical (significand : Nat) (exponent : Int) : Prop :=
  (hiddenBit ≤ significand ∧ significand < 2 * hiddenBit ∧ -1074 ≤ exponent ∧ exponent ≤ 971) ∨
    (significand < hiddenBit ∧ exponent = -1074)

/-- A finite binary64 number `± significand * 2 ^ exponent` in canonical form. -/
structure Binary64 where
  negative : Bool
  significand : Nat
  exponent : Int
  canonical : Binary64.IsCanonical significand exponent
  deriving DecidableEq, Repr

namespace Binary64

/-- The zero of the given sign. -/
def zero (negative : Bool) : Binary64 :=
  ⟨negative, 0, -1074, by decide⟩

instance : Inhabited Binary64 := ⟨zero false⟩

/-- The exact value in units of `2 ^ -1074`. -/
def scaled (x : Binary64) : Int :=
  let magnitude := x.significand * Nat.pow 2 (x.exponent + 1074).toNat
  if x.negative then -(magnitude : Int) else magnitude

/-- Both zeros are zero. -/
def isZero (x : Binary64) : Bool :=
  x.significand == 0

def negate (x : Binary64) : Binary64 :=
  { x with negative := !x.negative }

/-- Equality of values: the two zeros are equal. -/
def sameValue (x y : Binary64) : Bool :=
  x.scaled == y.scaled

/-- The order of the exact values. -/
def compareValue (x y : Binary64) : Ordering :=
  compare x.scaled y.scaled

/-- The value is a whole number. -/
def isWhole (x : Binary64) : Bool :=
  0 ≤ x.exponent || x.significand % Nat.pow 2 (-x.exponent).toNat == 0

/-- The whole part of the magnitude. -/
def wholeMagnitude (x : Binary64) : Nat :=
  x.significand * Nat.pow 2 x.exponent.toNat / Nat.pow 2 (-x.exponent).toNat

/-- The quotient rounded to the nearest natural number, ties to the even one. -/
def divNearestEven (num den : Nat) : Nat :=
  let quotient := num / den
  let twice := 2 * (num % den)
  if den < twice ∨ (twice = den ∧ quotient % 2 = 1) then quotient + 1 else quotient

/-- The largest `e` with `2 ^ e ≤ num / den`, for positive `num` and `den`. -/
def ratioLog2 (num den : Nat) : Int :=
  let estimate : Int := (num.log2 : Int) - den.log2
  if num * Nat.pow 2 (-estimate).toNat < den * Nat.pow 2 estimate.toNat then estimate - 1
  else estimate

/-- The datum with these parts, if they are in canonical form. -/
def ofParts? (negative : Bool) (significand : Nat) (exponent : Int) : Option Binary64 :=
  if h : IsCanonical significand exponent then some ⟨negative, significand, exponent, h⟩ else none

/-- The datum nearest to `± num / den`, ties to the even significand; `none` if that is infinite. -/
def ofRatio? (negative : Bool) (num den : Nat) : Option Binary64 :=
  if num = 0 then some (zero negative)
  else
    let exponent := max (ratioLog2 num den - 52) (-1074)
    let significand :=
      divNearestEven (num * Nat.pow 2 (-exponent).toNat) (den * Nat.pow 2 exponent.toNat)
    if significand = 2 * hiddenBit then ofParts? negative hiddenBit (exponent + 1)
    else ofParts? negative significand exponent

/-- The datum nearest to an integer. -/
def ofInt? (n : Int) : Option Binary64 :=
  ofRatio? (n < 0) n.natAbs 1

/-- The datum nearest to `± digits * 10 ^ exponent`. -/
def ofDecimal? (negative : Bool) (digits : Nat) (exponent : Int) : Option Binary64 :=
  ofRatio? negative (digits * Nat.pow 10 exponent.toNat) (Nat.pow 10 (-exponent).toNat)

/-- The exact product, rounded once. -/
def mul? (x y : Binary64) : Option Binary64 :=
  let exponent := x.exponent + y.exponent
  ofRatio? (x.negative != y.negative)
    (x.significand * y.significand * Nat.pow 2 exponent.toNat) (Nat.pow 2 (-exponent).toNat)

/-- The exact quotient, rounded once; `none` also when the divisor is zero. -/
def div? (x y : Binary64) : Option Binary64 :=
  if y.isZero then none
  else
    let exponent := x.exponent - y.exponent
    ofRatio? (x.negative != y.negative)
      (x.significand * Nat.pow 2 exponent.toNat) (y.significand * Nat.pow 2 (-exponent).toNat)

end Binary64
end Schemata
