import Schemata.Proofs.Json.FloatText
import Schemata.Proofs.Numeric.Shortest

/-!
# Written floats are in range

The text of a float is not always read back as the same float, since the reader multiplies by a
rounded power of ten.  It never runs out of range, though: division by a power of ten leads to no
infinity, and where the reader multiplies, the coefficient of the shortest decimal leaves room for
both roundings.
-/

namespace Schemata
namespace Json

open Binary64 (magnitude infinite)

/-! ## Powers of ten -/

/-- The coefficient is converted with an error of at most an eighth of `2 ^ roundingBits k`. -/
def roundingBits (k : ℕ) : ℕ :=
  if k < 292 then 6 else if k = 292 then 3 else 0

/-- The upper end of the reals that round to a number below the greatest. -/
@[irreducible]
def greatestEnd : ℕ :=
  18014398509481981 * 2 ^ 970

/-- No coefficient with the exponent `k` is greater than this, if the decimal is the shortest one
of a number below the greatest. -/
def greatestCoefficient (k : ℕ) : ℕ :=
  min (10 ^ 17) (greatestEnd / 10 ^ k)

/-- Every power of ten is at least one, and leaves room for the conversion of a coefficient and for
its own error. -/
theorem powerOfTen_check : ∀ k : ℕ, k ≤ greatestPower →
    (Binary64.hiddenBit ≤ (powerOfTen k).significand ∧ -52 ≤ (powerOfTen k).exponent) ∧
      greatestCoefficient k < 2 ^ (roundingBits k + 51) ∧
        (8 * greatestCoefficient k + 2 ^ roundingBits k) *
            ((powerOfTen k).significand * 2 ^ (powerOfTen k).exponent.toNat) <
          8 * infinite * 2 ^ (-(powerOfTen k).exponent).toNat := by
  decide +kernel

theorem one_le_powerOfTen {k : ℕ} (hk : k ≤ greatestPower) : 1 ≤ (powerOfTen k).magnitude := by
  obtain ⟨⟨hsignificand, hexponent⟩, -⟩ := powerOfTen_check k hk
  have hsignificand' : (Binary64.hiddenBit : ℚ) ≤ (powerOfTen k).significand := by
    exact_mod_cast hsignificand
  calc (1 : ℚ) = Binary64.hiddenBit * 2 ^ (-52 : ℤ) := by norm_num
    _ ≤ (powerOfTen k).significand * 2 ^ (powerOfTen k).exponent := by
        gcongr
        norm_num

theorem scaling_spec {k : ℕ} (hk : k ≤ greatestPower) :
    ((greatestCoefficient k : ℚ) + 2 ^ ((roundingBits k : ℤ) - 3)) * (powerOfTen k).magnitude <
      infinite := by
  obtain ⟨-, -, hroom⟩ := powerOfTen_check k hk
  have heighth : (2 : ℚ) ^ ((roundingBits k : ℤ) - 3) = 2 ^ roundingBits k / 8 := by
    rw [zpow_sub₀ (by norm_num), zpow_natCast]
    norm_num
  have hroom' : (8 * (greatestCoefficient k : ℚ) + 2 ^ roundingBits k) *
      ((powerOfTen k).significand * 2 ^ (powerOfTen k).exponent.toNat : ℕ) <
        8 * infinite * (2 ^ (-(powerOfTen k).exponent).toNat : ℕ) := by
    exact_mod_cast hroom
  rw [Binary64.magnitude_eq_div, heighth, ← mul_div_assoc, div_lt_iff₀ (by positivity)]
  linarith
/-- Scaling down never leads out of range. -/
theorem scaleByPower_isSome_of_nonpos {steps : ℕ} {x : Binary64} {exponent : ℤ}
    (h : exponent ≤ 0) : (scaleByPower steps x exponent).isSome := by
  induction steps generalizing x exponent with
  | zero => rfl
  | succ steps ih =>
    rw [scaleByPower]
    split
    · case isTrue hsmall =>
      split
      · case isTrue hzero =>
        obtain rfl : exponent = 0 := by omega
        refine Binary64.mul?_isSome ?_
        have hone : (powerOfTen 0).magnitude = 1 := by
          have hparts : (powerOfTen 0).significand = Binary64.hiddenBit ∧
              (powerOfTen 0).exponent = -52 := by
            decide +kernel
          rw [magnitude, hparts.1, hparts.2]
          norm_num
        rw [Int.natAbs_zero, hone, mul_one]
        exact x.magnitude_lt_infinite
      · exact Binary64.div?_isSome (one_le_powerOfTen hsmall)
    · case isFalse hlarge =>
      split
      · rfl
      · rw [if_neg (by unfold greatestPower at hlarge; omega)]
        obtain ⟨y, hy⟩ := Option.isSome_iff_exists.mp
          (Binary64.div?_isSome (x := x) (one_le_powerOfTen (Nat.le_refl _)))
        rw [hy]
        refine ih ?_
        unfold greatestPower at hlarge ⊢
        omega

/-! ## The parts of a written float -/

/-- The significand and the exponent lead to a float. -/
def InRange (significand : ℕ) (exponent : ℤ) : Prop :=
  ((Binary64.ofInt? significand).bind
    (scaleByPower (exponent.natAbs / greatestPower + 1) · exponent)).isSome

instance (significand : ℕ) (exponent : ℤ) : Decidable (InRange significand exponent) :=
  inferInstanceAs (Decidable (_ = true))

theorem InRange.floatOfParts {significand : ℕ} {exponent : ℤ} (h : InRange significand exponent)
    (negative : Bool) :
    ∃ y, ∀ rest, Json.floatOfParts negative significand exponent rest = .ok (.float y, rest) := by
  obtain ⟨x, hx⟩ := Option.isSome_iff_exists.mp h
  refine ⟨if negative then x.negate else x, fun rest => ?_⟩
  unfold Json.floatOfParts
  rw [hx]

theorem lt_infinite {n : ℕ} (h : n ≤ 10 ^ 17) : (n : ℚ) < infinite := by
  have hbound : 10 ^ 17 < infinite := by decide +kernel
  exact_mod_cast Nat.lt_of_le_of_lt h hbound

theorem inRange_of_nonpos {significand : ℕ} {exponent : ℤ} (hsignificand : significand ≤ 10 ^ 17)
    (hexponent : exponent ≤ 0) : InRange significand exponent := by
  have hsome : (Binary64.ofInt? significand).isSome := by
    refine Binary64.ofRatio?_isSome Nat.one_pos ?_
    rw [Nat.cast_one, div_one]
    exact lt_infinite hsignificand
  obtain ⟨x, hx⟩ := Option.isSome_iff_exists.mp hsome
  rw [InRange, hx]
  exact scaleByPower_isSome_of_nonpos hexponent

theorem inRange_of_pos {significand k : ℕ} (hpos : 0 < significand) (hk : k ≤ greatestPower)
    (hle : significand ≤ greatestCoefficient k) : InRange significand k := by
  obtain ⟨-, hbits, -⟩ := powerOfTen_check k hk
  have hlt : (significand : ℚ) < 2 ^ ((roundingBits k : ℤ) - 2 + 53) := by
    have hexponent : (roundingBits k : ℤ) - 2 + 53 = (roundingBits k + 51 : ℕ) := by
      push_cast
      ring
    rw [hexponent, zpow_natCast]
    exact_mod_cast Nat.lt_of_le_of_lt hle hbits
  obtain ⟨x, hx, hmagnitude⟩ := Binary64.exists_ofInt? hpos (by omega) hlt
    (lt_infinite (Nat.le_trans hle (Nat.min_le_left _ _)))
  have hproduct : x.magnitude * (powerOfTen k).magnitude < infinite := by
    refine lt_of_le_of_lt (mul_le_mul_of_nonneg_right ?_ (powerOfTen k).magnitude_nonneg)
      (scaling_spec hk)
    have hle' : (significand : ℚ) ≤ greatestCoefficient k := by exact_mod_cast hle
    have hexponent : (roundingBits k : ℤ) - 2 - 1 = roundingBits k - 3 := by ring
    rw [hexponent] at hmagnitude
    linarith
  rw [InRange, hx, Option.bind_some, scaleByPower, Int.natAbs_natCast, if_pos hk,
    if_pos (Int.natCast_nonneg k)]
  exact Binary64.mul?_isSome hproduct

/-! ## The shortest decimal -/

variable {x : Binary64}

theorem cast_greatestEnd : (greatestEnd : ℚ) = 18014398509481981 / 2 * 2 ^ (971 : ℤ) := by
  unfold greatestEnd
  exact Binary64.cast_mul_two_pow 18014398509481981 970

/-- The upper end of the reals that round to a number. -/
theorem upperEnd_le_infinite : (x.significand + 1 / 2 : ℚ) * 2 ^ x.exponent ≤ infinite := by
  obtain ⟨negative, significand, exponent, hcanonical⟩ := x
  unfold Binary64.IsCanonical Binary64.hiddenBit at hcanonical
  have hsignificand : (significand : ℚ) ≤ (9007199254740991 : ℕ) := by
    exact_mod_cast (by omega : significand ≤ 9007199254740991)
  rw [Binary64.cast_infinite]
  refine mul_le_mul ?_ (zpow_le_zpow_right₀ (by norm_num) (by simp only; omega)) (by positivity)
    (by norm_num)
  push_cast at hsignificand
  simp only
  linarith

theorem upperEnd_le_greatestEnd (h : ¬ (x.significand = 9007199254740991 ∧ x.exponent = 971)) :
    (x.significand + 1 / 2 : ℚ) * 2 ^ x.exponent ≤ greatestEnd := by
  obtain ⟨negative, significand, exponent, hcanonical⟩ := x
  unfold Binary64.IsCanonical Binary64.hiddenBit at hcanonical
  simp only at h ⊢
  rw [cast_greatestEnd]
  by_cases htop : exponent = 971
  · have hsignificand : (significand : ℚ) ≤ (9007199254740990 : ℕ) := by
      exact_mod_cast (by omega : significand ≤ 9007199254740990)
    push_cast at hsignificand
    rw [htop]
    refine mul_le_mul_of_nonneg_right ?_ (by positivity)
    linarith
  · have hsignificand : (significand : ℚ) ≤ (9007199254740991 : ℕ) := by
      exact_mod_cast (by omega : significand ≤ 9007199254740991)
    push_cast at hsignificand
    have hhalf : (2 : ℚ) ^ (971 : ℤ) = 2 * 2 ^ (970 : ℤ) := by
      rw [← zpow_one_add₀ (by norm_num)]
      rfl
    rw [hhalf, ← mul_assoc]
    refine mul_le_mul ?_ (zpow_le_zpow_right₀ (by norm_num) (by omega)) (by positivity)
      (by norm_num)
    linarith

theorem shortest_exponent_le (hpos : 0 < x.significand) :
    (Decimal.shortest x).exponent ≤ greatestPower := by
  obtain ⟨-, hcoefficient, -, hvalue⟩ := Decimal.shortest_spec hpos
  have hbound : infinite < 10 ^ 309 := by decide +kernel
  have hone : (1 : ℚ) ≤ (Decimal.shortest x).coefficient := by exact_mod_cast hcoefficient
  have hlt : (10 : ℚ) ^ (Decimal.shortest x).exponent < 10 ^ ((309 : ℕ) : ℤ) := by
    calc (10 : ℚ) ^ (Decimal.shortest x).exponent = 1 * 10 ^ (Decimal.shortest x).exponent :=
          (one_mul _).symm
      _ ≤ (Decimal.shortest x).value := mul_le_mul_of_nonneg_right hone (by positivity)
      _ ≤ infinite := hvalue.trans upperEnd_le_infinite
      _ < 10 ^ ((309 : ℕ) : ℤ) := by
          rw [zpow_natCast]
          exact_mod_cast hbound
  have := (zpow_lt_zpow_iff_right₀ (by norm_num : (1 : ℚ) < 10)).mp hlt
  unfold greatestPower
  omega

theorem readable_shortest (hpos : 0 < x.significand) : Readable (Decimal.shortest x) where
  positive := (Decimal.shortest_spec hpos).2.1
  coefficient_le := (Decimal.shortest_spec hpos).2.2.1
  exponent_range := by
    have hlow := (Decimal.shortest_spec hpos).1
    have hhigh := shortest_exponent_le hpos
    unfold greatestPower at hhigh
    omega

theorem coefficient_le_greatest (hpos : 0 < x.significand) {k : ℕ}
    (hk : (Decimal.shortest x).exponent = k)
    (h : ¬ (x.significand = 9007199254740991 ∧ x.exponent = 971)) :
    (Decimal.shortest x).coefficient ≤ greatestCoefficient k := by
  obtain ⟨-, -, hle, hvalue⟩ := Decimal.shortest_spec hpos
  refine Nat.le_min.mpr ⟨hle, ?_⟩
  rw [Nat.le_div_iff_mul_le (Nat.pow_pos (by decide))]
  have hend := hvalue.trans (upperEnd_le_greatestEnd h)
  rw [Decimal.value, hk, zpow_natCast] at hend
  exact_mod_cast hend

/-- The greatest number of each sign. -/
def greatest (negative : Bool) : Binary64 :=
  ⟨negative, 9007199254740991, 971, by decide⟩

/-- The greatest number has the only shortest decimal above the bound, and still is in range. -/
theorem inRange_greatest (h : x.significand = 9007199254740991 ∧ x.exponent = 971) :
    InRange (Decimal.shortest x).coefficient (Decimal.shortest x).exponent := by
  have hgreatest : ∀ negative, InRange (Decimal.shortest (greatest negative)).coefficient
      (Decimal.shortest (greatest negative)).exponent := by
    decide +kernel
  obtain ⟨negative, significand, exponent, hcanonical⟩ := x
  obtain ⟨rfl, rfl⟩ : significand = 9007199254740991 ∧ exponent = 971 := h
  exact hgreatest negative

theorem inRange_shortest (hpos : 0 < x.significand) :
    InRange (Decimal.shortest x).coefficient (Decimal.shortest x).exponent := by
  by_cases hnonpos : (Decimal.shortest x).exponent ≤ 0
  · exact inRange_of_nonpos (readable_shortest hpos).coefficient_le hnonpos
  · by_cases htop : x.significand = 9007199254740991 ∧ x.exponent = 971
    · exact inRange_greatest htop
    · obtain ⟨k, hk⟩ := Int.eq_ofNat_of_zero_le (by omega : 0 ≤ (Decimal.shortest x).exponent)
      have hle := shortest_exponent_le hpos
      rw [hk]
      exact inRange_of_pos (readable_shortest hpos).positive (by omega)
        (coefficient_le_greatest hpos hk htop)

theorem inRange_writtenParts (hpos : 0 < x.significand) :
    InRange (Decimal.shortest x).writtenParts.1 (Decimal.shortest x).writtenParts.2 := by
  unfold Decimal.writtenParts
  split
  · case isTrue h =>
    refine inRange_of_nonpos ?_ (by norm_num)
    obtain ⟨⟨-, hlast⟩, hwhole⟩ := h
    have hdigits : (Decimal.shortest x).coefficient <
        10 ^ (Nat.toDigits 10 (Decimal.shortest x).coefficient).length := by
      rw [← Nat.length_toDigits_le_iff (by decide) (List.length_pos_of_ne_nil Nat.toDigits_ne_nil)]
    calc (Decimal.shortest x).coefficient * 10 ^ ((Decimal.shortest x).exponent.toNat + 1)
        ≤ 10 ^ (Nat.toDigits 10 (Decimal.shortest x).coefficient).length *
            10 ^ ((Decimal.shortest x).exponent.toNat + 1) := Nat.mul_le_mul_right _ hdigits.le
      _ = 10 ^ ((Nat.toDigits 10 (Decimal.shortest x).coefficient).length +
            ((Decimal.shortest x).exponent.toNat + 1)) := (Nat.pow_add _ _ _).symm
      _ ≤ 10 ^ 17 := Nat.pow_le_pow_right (by decide) (by omega)
  · exact inRange_shortest hpos

/-- What is read without a sign has none. -/
theorem readSigned_of_readUnsigned {text rest : List Char} {n : Number}
    (h : readUnsigned false text = .ok (n, rest)) : readSigned text = .ok (n, rest) := by
  unfold readSigned
  split
  · exact absurd h stopAt_ne_ok
  · exact h

theorem exists_readUnsigned_magnitude (x : Binary64) (negative : Bool) :
    ∃ y, ∀ rest, Closes rest →
      readUnsigned negative
        ((if x.isZero then "0.0" else (Decimal.shortest x).write .json).toList ++ rest) =
          .ok (.float y, rest) := by
  by_cases hzero : x.isZero = true
  · obtain ⟨y, hy⟩ := (inRange_of_nonpos (Nat.zero_le _) (by norm_num) :
      InRange 0 (-1)).floatOfParts negative
    refine ⟨y, fun rest hrest => ?_⟩
    rw [if_pos hzero, ← hy rest, ← readScale_closes hrest]
    have hread : readFraction negative false 0 0 (['0'] ++ rest) = readScale negative 0 (-1) rest :=
      readFraction_digits (allDigits_replicate 1) (Or.inr (by simp)) (by decide)
        (closes_not_digit hrest)
    rw [← hread]
    rfl
  · have hpos : 0 < x.significand := by
      refine Nat.pos_of_ne_zero fun hsignificand => hzero ?_
      rw [Binary64.isZero, hsignificand]
      rfl
    obtain ⟨y, hy⟩ := (inRange_writtenParts hpos).floatOfParts negative
    refine ⟨y, fun rest hrest => ?_⟩
    rw [if_neg hzero, readUnsigned_write (readable_shortest hpos) hrest, hy rest]

/-- The text of a float is read as a float. -/
theorem exists_readSigned_float (x : Binary64) :
    ∃ y, ∀ rest, Closes rest →
      readSigned ((Number.text .json (.float x)).toList ++ rest) = .ok (.float y, rest) := by
  obtain ⟨y, hy⟩ := exists_readUnsigned_magnitude x x.negative
  refine ⟨y, fun rest hrest => ?_⟩
  unfold Number.text Binary64.write
  by_cases hnegative : x.negative = true
  · rw [hnegative] at hy
    simp only [hnegative, if_true, String.toList_append]
    exact hy rest hrest
  · rw [Bool.not_eq_true] at hnegative
    rw [hnegative] at hy
    simp only [hnegative, Bool.false_eq_true, if_false]
    exact readSigned_of_readUnsigned (hy rest hrest)

end Json
end Schemata
