import Schemata.Numeric.Binary64

/-!
# The shortest decimal that reads back

The reals that round to a binary64 number form an interval around it, whose ends belong to it
exactly when the significand is even.  `Decimal.shortest` looks on the grids of one, two, up to
seventeen significant digits for a neighbour of the number inside that interval: the first grid
with a hit fixes the number of digits, of two hits the nearer wins, and an exact tie goes to the
even digit.

`Format` says how such a decimal is written; the two formats used here differ only in the
sign of a positive exponent.
-/

namespace Schemata

/-- A positive decimal `coefficient * 10 ^ exponent`. -/
structure Decimal where
  coefficient : Nat
  exponent : Int
  deriving DecidableEq, Repr

namespace Decimal

/-- The exact interval of reals that round to one number, as numerators over `den`. -/
structure Interval where
  low : Nat
  value : Nat
  high : Nat
  den : Nat
  closed : Bool

/-- The interval of a positive number: half a unit in the last place on each side, but a quarter
below a power of two, where the numbers lie twice as dense. -/
def Interval.ofBinary64 (x : Binary64) : Interval :=
  let unit := Nat.pow 2 (x.exponent - 2).toNat
  let below := if x.significand = Binary64.hiddenBit ∧ x.exponent ≠ -1074 then 1 else 2
  { low := (4 * x.significand - below) * unit
    value := 4 * x.significand * unit
    high := (4 * x.significand + 2) * unit
    den := Nat.pow 2 (2 - x.exponent).toNat
    closed := x.significand % 2 == 0 }

/-- The decimal lies in the interval. -/
def Interval.contains (i : Interval) (d : Decimal) : Bool :=
  let point := d.coefficient * Nat.pow 10 d.exponent.toNat * i.den
  let scale := Nat.pow 10 (-d.exponent).toNat
  if i.closed then i.low * scale ≤ point && point ≤ i.high * scale
  else i.low * scale < point && point < i.high * scale

/-- Comparison of `10 ^ exponent` with the interval's value. -/
def Interval.reaches (i : Interval) (exponent : Int) : Bool :=
  Nat.pow 10 exponent.toNat * i.den ≤ i.value * Nat.pow 10 (-exponent).toNat

/-- The exponent of the leading decimal digit of the value. -/
def Interval.leadingExponent (i : Interval) : Int :=
  let estimate := Binary64.ratioLog2 i.value i.den * 30103 / 100000
  if i.reaches (estimate + 1) then estimate + 1
  else if i.reaches estimate then estimate
  else estimate - 1

/-- The neighbour of the value on the grid of multiples of `10 ^ exponent` that reads back. -/
def Interval.neighbour? (i : Interval) (exponent : Int) : Option Decimal :=
  let num := i.value * Nat.pow 10 (-exponent).toNat
  let den := i.den * Nat.pow 10 exponent.toNat
  let floor := num / den
  let twice := 2 * (num % den)
  let lower : Decimal := ⟨floor, exponent⟩
  let upper : Decimal := ⟨floor + 1, exponent⟩
  match i.contains lower && floor != 0, i.contains upper with
  | true, true =>
    some (if twice < den ∨ (twice = den ∧ floor % 2 = 0) then lower else upper)
  | true, false => some lower
  | false, true => some upper
  | false, false => none

/-- Trailing zeros of the coefficient move into the exponent; at most `fuel` of them. -/
def stripZeros : Nat → Decimal → Decimal
  | 0, d => d
  | fuel + 1, d =>
    if d.coefficient % 10 = 0 then stripZeros fuel ⟨d.coefficient / 10, d.exponent + 1⟩ else d

/-- The decimal with the fewest digits that rounds to the positive number `x`. -/
def shortest (x : Binary64) : Decimal :=
  let i := Interval.ofBinary64 x
  let leading := i.leadingExponent
  let hit := (List.range 17).findSome? fun (n : Nat) => i.neighbour? (leading - n)
  stripZeros 17 (hit.getD ⟨i.value / i.den, 0⟩)

/-- How a decimal is written: positionally while the exponent of the leading digit lies between
the two bounds, in scientific notation otherwise. -/
structure Format where
  leastPositional : Int
  greatestPositional : Int
  plusSign : Bool

/-- Positional from `0.00001` up to sixteen whole digits; a positive exponent has its sign. -/
def Format.json : Format := ⟨-5, 15, true⟩

/-- As in JSON, but a positive exponent has no sign. -/
def Format.unsigned : Format := ⟨-5, 15, false⟩

/-- A positive decimal in the given format; a whole number keeps one zero after the point. -/
def write (n : Format) (d : Decimal) : String :=
  let digits := (Nat.repr d.coefficient).toList
  let leading : Int := d.exponent + digits.length - 1
  if n.leastPositional ≤ leading ∧ leading ≤ n.greatestPositional then
    if 0 ≤ d.exponent then
      String.ofList (digits ++ List.replicate d.exponent.toNat '0' ++ ['.', '0'])
    else if 0 ≤ leading then
      let whole := leading.toNat + 1
      String.ofList (digits.take whole ++ '.' :: digits.drop whole)
    else
      String.ofList ('0' :: '.' :: List.replicate (-leading - 1).toNat '0' ++ digits)
  else
    let fraction := if digits.length = 1 then [] else '.' :: digits.drop 1
    let sign := if leading < 0 then ['-'] else if n.plusSign then ['+'] else []
    String.ofList (digits.take 1 ++ fraction ++ 'e' :: sign ++ (Nat.repr leading.natAbs).toList)

end Decimal

/-- The shortest text that reads back, with the sign of a zero kept. -/
def Binary64.write (n : Decimal.Format) (x : Binary64) : String :=
  let magnitude := if x.isZero then "0.0" else (Decimal.shortest x).write n
  if x.negative then "-" ++ magnitude else magnitude

end Schemata
