import Mathlib.Algebra.Order.Field.Power
import Mathlib.Data.Rat.Cast.Order
import Mathlib.Tactic.FieldSimp
import Mathlib.Tactic.GCongr
import Mathlib.Tactic.Linarith
import Mathlib.Tactic.NormNum
import Mathlib.Tactic.Positivity
import Mathlib.Tactic.Ring
import Schemata.Numeric.Binary64

/-!
# Rounding to binary64

The nearest datum to a fraction lies within half a unit in the last place of it.  A fraction has
one exactly when it stays below the middle between the greatest datum and the next power of two,
and this gives simple conditions for a product and for a quotient to be finite.
-/

namespace Schemata
namespace Binary64

/-- The absolute value of a number. -/
def magnitude (x : Binary64) : ℚ :=
  x.significand * 2 ^ x.exponent

/-- Magnitudes from here on round to infinity: the middle between the greatest datum and the next
power of two. -/
@[irreducible]
def infinite : ℕ :=
  18014398509481983 * 2 ^ 970

theorem cast_mul_two_pow (m n : ℕ) : ((m * 2 ^ n : ℕ) : ℚ) = m / 2 * 2 ^ ((n : ℤ) + 1) := by
  rw [zpow_add_one₀ (by norm_num), zpow_natCast]
  push_cast
  ring

theorem cast_infinite : (infinite : ℚ) = 18014398509481983 / 2 * 2 ^ (971 : ℤ) := by
  unfold infinite
  exact cast_mul_two_pow 18014398509481983 970

theorem infinite_lt : (infinite : ℚ) < 2 ^ (971 + 53 : ℤ) := by
  rw [cast_infinite, zpow_add₀ (by norm_num), mul_comm ((2 : ℚ) ^ (971 : ℤ))]
  gcongr
  norm_num

theorem zpow_eq_div {b : ℕ} (hb : 0 < b) (e : ℤ) :
    (b : ℚ) ^ e = (b ^ e.toNat : ℕ) / (b ^ (-e).toNat : ℕ) := by
  have hne : (b : ℚ) ≠ 0 := by exact_mod_cast hb.ne'
  rcases Int.le_total 0 e with h | h
  · obtain ⟨n, rfl⟩ := Int.eq_ofNat_of_zero_le h
    simp
  · obtain ⟨n, rfl⟩ := Int.exists_eq_neg_ofNat h
    simp

theorem two_zpow_eq_div (e : ℤ) :
    (2 : ℚ) ^ e = (2 ^ e.toNat : ℕ) / (2 ^ (-e).toNat : ℕ) := by
  exact_mod_cast zpow_eq_div (by decide : 0 < 2) e

theorem magnitude_nonneg (x : Binary64) : 0 ≤ x.magnitude := by
  unfold magnitude
  positivity

theorem magnitude_eq_div (x : Binary64) :
    x.magnitude =
      (x.significand * 2 ^ x.exponent.toNat : ℕ) / (2 ^ (-x.exponent).toNat : ℕ) := by
  rw [magnitude, two_zpow_eq_div]
  push_cast
  ring

theorem magnitude_lt_infinite (x : Binary64) : x.magnitude < infinite := by
  obtain ⟨negative, significand, exponent, hcanonical⟩ := x
  have hbounds : significand ≤ 2 * hiddenBit - 1 ∧ exponent ≤ 971 := by
    unfold IsCanonical hiddenBit at hcanonical
    unfold hiddenBit
    omega
  have hsignificand : (significand : ℚ) ≤ 2 ^ 53 - 1 := by
    have hle : (significand : ℚ) ≤ (2 * hiddenBit - 1 : ℕ) := by exact_mod_cast hbounds.1
    norm_num at hle ⊢
    exact hle
  calc (significand : ℚ) * 2 ^ exponent ≤ (2 ^ 53 - 1) * 2 ^ (971 : ℤ) := by
        gcongr
        · norm_num
        · exact hbounds.2
    _ < infinite := by
        rw [cast_infinite]
        gcongr
        norm_num

/-! ## The leading bit of a fraction -/

theorem ratioLog2_spec {num den : ℕ} (hnum : 0 < num) (hden : 0 < den) :
    (2 : ℚ) ^ ratioLog2 num den ≤ num / den ∧ (num : ℚ) / den < 2 ^ (ratioLog2 num den + 1) := by
  have hnumLow : (2 : ℚ) ^ (num.log2 : ℤ) ≤ num := by
    rw [zpow_natCast]
    exact_mod_cast Nat.log2_self_le hnum.ne'
  have hnumHigh : (num : ℚ) < 2 ^ ((num.log2 : ℤ) + 1) := by
    exact_mod_cast (Nat.lt_log2_self : num < 2 ^ (num.log2 + 1))
  have hdenLow : (2 : ℚ) ^ (den.log2 : ℤ) ≤ den := by
    rw [zpow_natCast]
    exact_mod_cast Nat.log2_self_le hden.ne'
  have hdenHigh : (den : ℚ) < 2 ^ ((den.log2 : ℤ) + 1) := by
    exact_mod_cast (Nat.lt_log2_self : den < 2 ^ (den.log2 + 1))
  have hdenPos : (0 : ℚ) < den := by exact_mod_cast hden
  have hestimate : (num * 2 ^ (-((num.log2 : ℤ) - den.log2)).toNat <
        den * 2 ^ ((num.log2 : ℤ) - den.log2).toNat) ↔
      (num : ℚ) / den < 2 ^ ((num.log2 : ℤ) - den.log2) := by
    rw [two_zpow_eq_div, div_lt_div_iff₀ hdenPos (by positivity)]
    norm_cast
    rw [Nat.mul_comm den]
  unfold ratioLog2
  simp only [Nat.pow_eq, hestimate]
  split
  · case isTrue hlt =>
    refine ⟨?_, by rwa [Int.sub_add_cancel]⟩
    rw [le_div_iff₀ hdenPos]
    calc (2 : ℚ) ^ ((num.log2 : ℤ) - den.log2 - 1) * den
        ≤ 2 ^ ((num.log2 : ℤ) - den.log2 - 1) * 2 ^ ((den.log2 : ℤ) + 1) := by
          gcongr
      _ = 2 ^ (num.log2 : ℤ) := by
          rw [← zpow_add₀ (by norm_num)]
          congr 1
          ring
      _ ≤ num := hnumLow
  · case isFalse hge =>
    refine ⟨not_lt.mp hge, ?_⟩
    rw [div_lt_iff₀ hdenPos]
    calc (num : ℚ) < 2 ^ ((num.log2 : ℤ) + 1) := hnumHigh
      _ = 2 ^ ((num.log2 : ℤ) - den.log2 + 1) * 2 ^ (den.log2 : ℤ) := by
          rw [← zpow_add₀ (by norm_num)]
          congr 1
          ring
      _ ≤ 2 ^ ((num.log2 : ℤ) - den.log2 + 1) * den := by
          gcongr

/-! ## The nearest datum -/

theorem divNearestEven_spec {num den : ℕ} (hden : 0 < den) :
    |(divNearestEven num den : ℚ) - num / den| ≤ 1 / 2 := by
  have hdenPos : (0 : ℚ) < den := by exact_mod_cast hden
  have hdiv : den * (num / den) + num % den = num := Nat.div_add_mod num den
  have hmod : num % den < den := Nat.mod_lt num hden
  have hbounds : 2 * (divNearestEven num den * den) ≤ 2 * num + den ∧
      2 * num ≤ 2 * (divNearestEven num den * den) + den := by
    unfold divNearestEven
    simp only
    split
    · rw [Nat.add_mul, Nat.mul_comm (num / den) den]
      omega
    · rw [Nat.mul_comm (num / den) den]
      omega
  have hhigh : 2 * ((divNearestEven num den : ℚ) * den) ≤ 2 * num + den := by
    exact_mod_cast hbounds.1
  have hlow : 2 * (num : ℚ) ≤ 2 * (divNearestEven num den * den) + den := by
    exact_mod_cast hbounds.2
  rw [abs_le]
  constructor
  · rw [le_sub_iff_add_le, neg_add_eq_sub, sub_le_iff_le_add, div_le_iff₀ hdenPos]
    linarith
  · rw [sub_le_iff_le_add, ← mul_le_mul_iff_left₀ hdenPos, add_mul, div_mul_cancel₀ _ hdenPos.ne']
    linarith

/-- The exponent of the datum nearest to a fraction, before a carry. -/
def ratioExponent (num den : ℕ) : ℤ :=
  max (ratioLog2 num den - 52) (-1074)

/-- The significand of the datum nearest to a fraction, before a carry. -/
def ratioSignificand (num den : ℕ) : ℕ :=
  divNearestEven (num * 2 ^ (-ratioExponent num den).toNat)
    (den * 2 ^ (ratioExponent num den).toNat)

theorem ofRatio?_of_pos {negative : Bool} {num den : ℕ} (hnum : 0 < num) :
    ofRatio? negative num den =
      if ratioSignificand num den = 2 * hiddenBit then
        ofParts? negative hiddenBit (ratioExponent num den + 1)
      else ofParts? negative (ratioSignificand num den) (ratioExponent num den) := by
  unfold ofRatio?
  rw [if_neg hnum.ne']
  rfl

theorem ratioExponent_le_of_lt {num den : ℕ} {k : ℤ} (hnum : 0 < num) (hden : 0 < den)
    (hk : -1074 ≤ k) (h : (num : ℚ) / den < 2 ^ (k + 53)) :
    ratioExponent num den ≤ k := by
  have hlt : (2 : ℚ) ^ ratioLog2 num den < 2 ^ (k + 53) :=
    (ratioLog2_spec hnum hden).1.trans_lt h
  have hlog : ratioLog2 num den < k + 53 := (zpow_lt_zpow_iff_right₀ (by norm_num)).mp hlt
  unfold ratioExponent
  omega

section Nearest

/-- The significand is the fraction in units of the last place, rounded. -/
theorem ratioSignificand_spec (num : ℕ) {den : ℕ} (hden : 0 < den) :
    |(ratioSignificand num den : ℚ) - num / den / 2 ^ ratioExponent num den| ≤ 1 / 2 := by
  have hscaled : ((num * 2 ^ (-ratioExponent num den).toNat : ℕ) : ℚ) /
      (den * 2 ^ (ratioExponent num den).toNat : ℕ) =
        num / den / 2 ^ ratioExponent num den := by
    rw [two_zpow_eq_div]
    push_cast
    field_simp
  rw [← hscaled]
  exact divNearestEven_spec (Nat.mul_pos hden (Nat.pow_pos (by decide)))

theorem ratioSignificand_mul_spec (num : ℕ) {den : ℕ} (hden : 0 < den) :
    |(ratioSignificand num den : ℚ) * 2 ^ ratioExponent num den - num / den| ≤
      2 ^ (ratioExponent num den - 1) := by
  have hunit : (0 : ℚ) < 2 ^ ratioExponent num den := by positivity
  have hhalf : (2 : ℚ) ^ (ratioExponent num den - 1) = 1 / 2 * 2 ^ ratioExponent num den := by
    rw [zpow_sub_one₀ (by norm_num), mul_comm, one_div]
  calc |(ratioSignificand num den : ℚ) * 2 ^ ratioExponent num den - num / den|
      = |((ratioSignificand num den : ℚ) - num / den / 2 ^ ratioExponent num den) *
          2 ^ ratioExponent num den| := by rw [sub_mul, div_mul_cancel₀ _ hunit.ne']
    _ = |(ratioSignificand num den : ℚ) - num / den / 2 ^ ratioExponent num den| *
          2 ^ ratioExponent num den := by rw [abs_mul, abs_of_pos hunit]
    _ ≤ 1 / 2 * 2 ^ ratioExponent num den := by
        gcongr
        exact ratioSignificand_spec num hden
    _ = 2 ^ (ratioExponent num den - 1) := hhalf.symm

variable {num den : ℕ} (hnum : 0 < num) (hden : 0 < den)

include hnum hden in
theorem ratioSignificand_le : ratioSignificand num den ≤ 2 * hiddenBit := by
  have hunit : (0 : ℚ) < 2 ^ ratioExponent num den := by positivity
  have hquotient : (num : ℚ) / den / 2 ^ ratioExponent num den < 9007199254740992 := by
    rw [div_lt_iff₀ hunit]
    calc (num : ℚ) / den < 2 ^ (ratioLog2 num den + 1) := (ratioLog2_spec hnum hden).2
      _ ≤ 2 ^ (53 + ratioExponent num den) := by
          refine zpow_le_zpow_right₀ (by norm_num) ?_
          unfold ratioExponent
          omega
      _ = 9007199254740992 * 2 ^ ratioExponent num den := by
          rw [zpow_add₀ (by norm_num)]
          norm_num
  have hlt : (ratioSignificand num den : ℚ) < (9007199254740993 : ℕ) := by
    have hnear := (abs_le.mp (ratioSignificand_spec num hden)).2
    push_cast
    linarith
  have hlt' : ratioSignificand num den < 9007199254740993 := by exact_mod_cast hlt
  unfold hiddenBit
  omega

include hnum hden in
theorem hiddenBit_le_ratioSignificand (h : -1074 < ratioExponent num den) :
    hiddenBit ≤ ratioSignificand num den := by
  have hunit : (0 : ℚ) < 2 ^ ratioExponent num den := by positivity
  have hquotient : (4503599627370496 : ℚ) ≤ num / den / 2 ^ ratioExponent num den := by
    rw [le_div_iff₀ hunit]
    calc (4503599627370496 : ℚ) * 2 ^ ratioExponent num den
        = 2 ^ (52 + ratioExponent num den) := by
          rw [zpow_add₀ (by norm_num)]
          norm_num
      _ ≤ 2 ^ ratioLog2 num den := by
          refine zpow_le_zpow_right₀ (by norm_num) ?_
          unfold ratioExponent at h ⊢
          omega
      _ ≤ num / den := (ratioLog2_spec hnum hden).1
  have hgt : ((4503599627370495 : ℕ) : ℚ) < ratioSignificand num den := by
    have hnear := (abs_le.mp (ratioSignificand_spec num hden)).1
    push_cast
    linarith
  have hgt' : 4503599627370495 < ratioSignificand num den := by exact_mod_cast hgt
  unfold hiddenBit
  omega

include hden in
/-- Below the bound there is no carry out of the greatest exponent. -/
theorem ratioSignificand_lt_of_top (hfinite : (num : ℚ) / den < infinite)
    (htop : ratioExponent num den = 971) :
    ratioSignificand num den < 2 * hiddenBit := by
  have hunit : (0 : ℚ) < 2 ^ (971 : ℤ) := by positivity
  have hquotient : (num : ℚ) / den / 2 ^ (971 : ℤ) < 9007199254740992 - 1 / 2 := by
    rw [div_lt_iff₀ hunit]
    refine hfinite.trans_le (le_of_eq ?_)
    rw [cast_infinite]
    norm_num
  have hlt : (ratioSignificand num den : ℚ) < (9007199254740992 : ℕ) := by
    have hnear := (abs_le.mp (ratioSignificand_spec num hden)).2
    rw [htop] at hnear
    push_cast
    linarith
  unfold hiddenBit
  exact_mod_cast hlt

include hnum hden in
/-- A fraction below the bound is rounded to its rounded significand with its exponent. -/
theorem exists_ofRatio?_eq (negative : Bool) (hfinite : (num : ℚ) / den < infinite) :
    ∃ y, ofRatio? negative num den = some y ∧ y.negative = negative ∧
      y.magnitude = ratioSignificand num den * 2 ^ ratioExponent num den := by
  have hleast : -1074 ≤ ratioExponent num den := le_max_right _ _
  have hgreatest : ratioExponent num den ≤ 971 := by
    exact ratioExponent_le_of_lt hnum hden (by norm_num) (hfinite.trans infinite_lt)
  have hle := ratioSignificand_le hnum hden
  rw [ofRatio?_of_pos hnum]
  by_cases hcarry : ratioSignificand num den = 2 * hiddenBit
  · have hbelow : ratioExponent num den ≠ 971 := fun htop =>
      absurd hcarry (ratioSignificand_lt_of_top hden hfinite htop).ne
    have hcanonical : IsCanonical hiddenBit (ratioExponent num den + 1) :=
      Or.inl ⟨le_refl _, by decide, by omega, by omega⟩
    refine ⟨⟨negative, _, _, hcanonical⟩, ?_, rfl, ?_⟩
    · rw [if_pos hcarry, ofParts?, dif_pos hcanonical]
    · rw [hcarry, magnitude, zpow_add₀ (by norm_num), zpow_one]
      push_cast
      ring
  · have hcanonical : IsCanonical (ratioSignificand num den) (ratioExponent num den) := by
      by_cases hnormal : -1074 < ratioExponent num den
      · exact Or.inl ⟨hiddenBit_le_ratioSignificand hnum hden hnormal, by omega, hleast, hgreatest⟩
      · unfold IsCanonical
        omega
    refine ⟨⟨negative, _, _, hcanonical⟩, ?_, rfl, rfl⟩
    rw [if_neg hcarry, ofParts?, dif_pos hcanonical]

include hnum hden in
/-- A fraction below the bound has a nearest datum, and that lies near. -/
theorem exists_ofRatio? (negative : Bool) (hfinite : (num : ℚ) / den < infinite) :
    ∃ y, ofRatio? negative num den = some y ∧
      |y.magnitude - num / den| ≤ 2 ^ (ratioExponent num den - 1) := by
  obtain ⟨y, hy, -, hmagnitude⟩ := exists_ofRatio?_eq hnum hden negative hfinite
  exact ⟨y, hy, hmagnitude ▸ ratioSignificand_mul_spec num hden⟩

end Nearest

/-! ## Products and quotients -/

theorem ofRatio?_isSome {negative : Bool} {num den : ℕ} (hden : 0 < den)
    (hfinite : (num : ℚ) / den < infinite) :
    (ofRatio? negative num den).isSome := by
  rcases Nat.eq_zero_or_pos num with rfl | hnum
  · rfl
  · obtain ⟨y, hy, -⟩ := exists_ofRatio? hnum hden negative hfinite
    rw [hy]
    rfl

theorem mul?_isSome {x y : Binary64} (h : x.magnitude * y.magnitude < infinite) :
    (x.mul? y).isSome := by
  refine ofRatio?_isSome (Nat.pow_pos (by decide)) ?_
  have hproduct : ((x.significand * y.significand *
      Nat.pow 2 (x.exponent + y.exponent).toNat : ℕ) : ℚ) /
        (Nat.pow 2 (-(x.exponent + y.exponent)).toNat : ℕ) = x.magnitude * y.magnitude := by
    simp only [Nat.pow_eq]
    rw [Nat.cast_mul, mul_div_assoc, ← two_zpow_eq_div, zpow_add₀ (by norm_num)]
    unfold magnitude
    push_cast
    ring
  rwa [hproduct]

/-- Dividing by a number that is no less than one leads to no infinity. -/
theorem div?_isSome {x y : Binary64} (h : 1 ≤ y.magnitude) : (x.div? y).isSome := by
  have hpos : 0 < y.significand := by
    refine Nat.pos_of_ne_zero fun hzero => ?_
    rw [magnitude, hzero, Nat.cast_zero, zero_mul] at h
    norm_num at h
  unfold div? isZero
  rw [if_neg (by simpa using hpos.ne')]
  refine ofRatio?_isSome (Nat.mul_pos hpos (Nat.pow_pos (by decide))) ?_
  have hquotient : ((x.significand * Nat.pow 2 (x.exponent - y.exponent).toNat : ℕ) : ℚ) /
      (y.significand * Nat.pow 2 (-(x.exponent - y.exponent)).toNat : ℕ) =
        x.magnitude / y.magnitude := by
    simp only [Nat.pow_eq]
    rw [Nat.cast_mul, Nat.cast_mul, mul_div_mul_comm, ← two_zpow_eq_div, zpow_sub₀ (by norm_num),
      ← mul_div_mul_comm]
    rfl
  rw [hquotient]
  exact (div_le_self x.magnitude_nonneg h).trans_lt x.magnitude_lt_infinite

/-- A whole number is rounded by no more than half a unit of its last place. -/
theorem exists_ofInt? {n : ℕ} {k : ℤ} (hpos : 0 < n) (hk : -1074 ≤ k)
    (hlt : (n : ℚ) < 2 ^ (k + 53)) (hfinite : (n : ℚ) < infinite) :
    ∃ y, ofInt? n = some y ∧ y.magnitude ≤ n + 2 ^ (k - 1) := by
  have hone : (n : ℚ) / (1 : ℕ) = n := by rw [Nat.cast_one, div_one]
  obtain ⟨y, hy, hnear⟩ := exists_ofRatio? hpos Nat.one_pos (decide ((n : ℤ) < 0))
    (by rwa [hone])
  refine ⟨y, hy, ?_⟩
  have hexponent : ratioExponent n 1 ≤ k :=
    ratioExponent_le_of_lt hpos Nat.one_pos hk (by rwa [hone])
  have hhalf : (2 : ℚ) ^ (ratioExponent n 1 - 1) ≤ 2 ^ (k - 1) :=
    zpow_le_zpow_right₀ (by norm_num) (by omega)
  have hhigh := (abs_le.mp hnear).2
  rw [hone] at hhigh
  linarith

end Binary64
end Schemata
