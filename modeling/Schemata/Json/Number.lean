import Schemata.Numeric.Decimal

/-!
# JSON numbers

A JSON number is a whole number in the union of the signed and the unsigned 64-bit ranges, or a
finite binary64 number.  Two whole numbers compare exactly; in every mixed pair the whole number
is first rounded to binary64.  Order reads whole numbers off either range, while equality compares
within one range only, and rounds two whole numbers that have no range in common.
-/

namespace Schemata.Json

/-- The least signed number of 64 bits. -/
abbrev leastWhole : Int := -9223372036854775808

/-- The greatest signed number of 64 bits. -/
abbrev greatestSigned : Int := 9223372036854775807

/-- The greatest unsigned number of 64 bits. -/
abbrev greatestWhole : Int := 18446744073709551615

/-- A whole number of 64 bits, signed or unsigned, or a finite binary64 number. -/
inductive Number where
  | whole (n : Int) (inRange : leastWhole ≤ n ∧ n ≤ greatestWhole)
  | float (x : Binary64)
  deriving DecidableEq, Repr

namespace Number

/-- The whole number `n`, if it is in range. -/
def ofInt? (n : Int) : Option Number :=
  if h : leastWhole ≤ n ∧ n ≤ greatestWhole then some (.whole n h) else none

instance : Inhabited Number := ⟨.whole 0 (by decide)⟩

/-- The nearest binary64 number. -/
def toBinary64 : Number → Binary64
  | whole n _ => (Binary64.ofInt? n).getD default
  | float x => x

/-- The signed word of a whole number in that range. -/
def signed? : Number → Option Int64
  | whole n _ => if n ≤ greatestSigned then some (.ofInt n) else none
  | float _ => none

/-- The unsigned word of a whole number in that range. -/
def unsigned? : Number → Option UInt64
  | whole n _ => if 0 ≤ n then some (.ofNat n.toNat) else none
  | float _ => none

/-- The whole number that a signed word means. -/
def ofSigned (i : Int64) : Number :=
  .whole i.toInt ⟨i.le_toInt, Int.le_trans (Int.le_of_lt i.toInt_lt) (by decide)⟩

/-- The whole number that an unsigned word means. -/
def ofUnsigned (u : UInt64) : Number :=
  .whole u.toNat ⟨Int.le_trans (by decide) (Int.natCast_nonneg _),
    Int.le_trans (Int.ofNat_le.mpr (Nat.le_sub_one_of_lt u.toNat_lt)) (by decide)⟩

/-- The exact whole number that is stored as one. -/
def whole? (a : Number) : Option Int :=
  (a.signed?.map Int64.toInt).or (a.unsigned?.map fun u => (u.toNat : Int))

/-- Equality by value: exact between two signed and between two unsigned words, in binary64
otherwise. -/
def equal (a b : Number) : Bool :=
  match a.signed?, b.signed? with
  | some i, some j => i == j
  | _, _ =>
    match a.unsigned?, b.unsigned? with
    | some u, some w => u == w
    | _, _ => a.toBinary64.sameValue b.toBinary64

/-- Order by value: exact between whole numbers, in binary64 otherwise. -/
def compareValue (a b : Number) : Ordering :=
  match a.whole?, b.whole? with
  | some n, some m => compare n m
  | _, _ => a.toBinary64.compareValue b.toBinary64

/-- The value is a whole number, however it is stored. -/
def isWhole : Number → Bool
  | whole _ _ => true
  | float x => x.isWhole

/-- A whole number in decimal digits, any other by its shortest digits. -/
def text (style : Decimal.Format) : Number → String
  | whole n _ => if n < 0 then "-" ++ Nat.repr n.natAbs else Nat.repr n.natAbs
  | float x => x.write style

end Number
end Schemata.Json
