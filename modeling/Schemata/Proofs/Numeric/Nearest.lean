import Schemata.Proofs.Numeric.Rounding

/-!
# Rounding goes to a nearest datum

The magnitudes of the data with at least the exponent of a rounded fraction are whole multiples of
one unit, and the rounded significand is the multiple that lies nearest.  A datum with a smaller
exponent lies below the least multiple with a leading bit, and the fraction above it.  So no datum
is nearer to a fraction than the one it is rounded to; in particular a whole number that some datum
holds exactly is rounded to its own value.
-/

namespace Schemata
namespace Binary64

/-- The exact value of a datum. -/
def value (x : Binary64) : ℚ :=
  if x.negative then -x.magnitude else x.magnitude

theorem abs_value (x : Binary64) : |x.value| = x.magnitude := by
  unfold value
  split
  · rw [abs_neg, abs_of_nonneg x.magnitude_nonneg]
  · exact abs_of_nonneg x.magnitude_nonneg

theorem least_exponent (x : Binary64) : -1074 ≤ x.exponent := by
  rcases x.canonical with h | h
  · exact h.2.2.1
  · exact h.2.ge

theorem scaled_eq (x : Binary64) : (x.scaled : ℚ) = x.value * 2 ^ (1074 : ℤ) := by
  have hunits : ((x.significand * Nat.pow 2 (x.exponent + 1074).toNat : ℕ) : ℚ) =
      x.magnitude * 2 ^ (1074 : ℤ) := by
    have hleast := x.least_exponent
    obtain ⟨n, hn⟩ := Int.eq_ofNat_of_zero_le (by omega : 0 ≤ x.exponent + 1074)
    rw [magnitude, mul_assoc, ← zpow_add₀ (by norm_num), hn, zpow_natCast]
    simp
  unfold scaled value
  split
  · rw [Int.cast_neg, Int.cast_natCast, hunits, neg_mul]
  · rw [Int.cast_natCast, hunits]

theorem sameValue_iff {x y : Binary64} : x.sameValue y = true ↔ x.value = y.value := by
  rw [sameValue, beq_iff_eq, ← @Int.cast_inj ℚ, scaled_eq, scaled_eq,
    mul_left_inj' (by positivity)]

/-! ## Nearest data -/

/-- A whole number within one half of a number is a nearest one. -/
theorem abs_sub_le_of_half {s k : ℤ} {t : ℚ} (h : |(s : ℚ) - t| ≤ 1 / 2) :
    |(s : ℚ) - t| ≤ |(k : ℚ) - t| := by
  by_cases heq : k = s
  · rw [heq]
  · have hone : (1 : ℚ) ≤ |(k : ℚ) - s| := by
      exact_mod_cast Int.one_le_abs (sub_ne_zero.mpr heq)
    have htriangle : |(k : ℚ) - s| ≤ |(k : ℚ) - t| + |(s : ℚ) - t| := by
      rw [abs_sub_comm (s : ℚ) t]
      exact abs_sub_le _ _ _
    linarith

section Nearest

variable {num den : ℕ} (hden : 0 < den)

include hden in
/-- No multiple of the unit is nearer to the fraction than the rounded significand. -/
theorem ratioSignificand_nearest (num : ℕ) (k : ℤ) :
    |(ratioSignificand num den : ℚ) * 2 ^ ratioExponent num den - num / den| ≤
      |(k : ℚ) * 2 ^ ratioExponent num den - num / den| := by
  have hunit : (0 : ℚ) < 2 ^ ratioExponent num den := by positivity
  have hscale : ∀ a : ℚ, |a * 2 ^ ratioExponent num den - num / den| =
      |a - num / den / 2 ^ ratioExponent num den| * 2 ^ ratioExponent num den := by
    intro a
    rw [← abs_of_pos hunit, ← abs_mul, sub_mul, abs_of_pos hunit, div_mul_cancel₀ _ hunit.ne']
  have hhalf : |((ratioSignificand num den : ℤ) : ℚ) - num / den / 2 ^ ratioExponent num den| ≤
      1 / 2 := by exact_mod_cast ratioSignificand_spec num hden
  rw [hscale, hscale, mul_le_mul_iff_left₀ hunit]
  exact_mod_cast abs_sub_le_of_half (k := k) hhalf

/-- With at least the exponent of the unit, a datum is a multiple of it. -/
theorem magnitude_eq_mul {e : ℤ} {z : Binary64} (h : e ≤ z.exponent) :
    ∃ k : ℤ, z.magnitude = k * 2 ^ e := by
  refine ⟨z.significand * 2 ^ (z.exponent - e).toNat, ?_⟩
  have htoNat : ((z.exponent - e).toNat : ℤ) = z.exponent - e := Int.toNat_of_nonneg (by omega)
  rw [magnitude]
  push_cast
  rw [← zpow_natCast (2 : ℚ) (z.exponent - e).toNat, htoNat, mul_assoc, ← zpow_add₀ (by norm_num),
    sub_add_cancel]

theorem magnitude_lt (z : Binary64) : z.magnitude < 2 ^ (z.exponent + 53) := by
  have hlt : (z.significand : ℚ) < 2 ^ (53 : ℤ) := by
    have hbound : z.significand < 9007199254740992 := by
      have hcanonical := z.canonical
      unfold IsCanonical hiddenBit at hcanonical
      omega
    have hcast : (z.significand : ℚ) < (9007199254740992 : ℕ) := by exact_mod_cast hbound
    norm_num at hcast ⊢
    exact hcast
  rw [magnitude, add_comm, zpow_add₀ (by norm_num)]
  gcongr

include hden in
/-- No datum is nearer to the fraction than the rounded significand with its exponent. -/
theorem nearest_magnitude (hnum : 0 < num) (z : Binary64) :
    |(ratioSignificand num den : ℚ) * 2 ^ ratioExponent num den - num / den| ≤
      |z.magnitude - num / den| := by
  by_cases hexponent : ratioExponent num den ≤ z.exponent
  · obtain ⟨k, hk⟩ := magnitude_eq_mul hexponent
    rw [hk]
    exact ratioSignificand_nearest hden num k
  · -- the least multiple with a leading bit stands between the datum and the fraction
    have hleast := z.least_exponent
    have hlog : ratioExponent num den + 52 = ratioLog2 num den := by
      unfold ratioExponent at hexponent ⊢
      omega
    have hbelow : z.magnitude ≤ 2 ^ (ratioExponent num den + 52) :=
      z.magnitude_lt.le.trans (zpow_le_zpow_right₀ (by norm_num) (by omega))
    have habove : (2 : ℚ) ^ (ratioExponent num den + 52) ≤ num / den :=
      hlog ▸ (ratioLog2_spec hnum hden).1
    have hmultiple : ((2 ^ 52 : ℤ) : ℚ) * 2 ^ ratioExponent num den =
        2 ^ (ratioExponent num den + 52) := by
      rw [add_comm, zpow_add₀ (by norm_num)]
      norm_num
    have hnearest := ratioSignificand_nearest hden num (2 ^ 52)
    rw [hmultiple] at hnearest
    refine hnearest.trans ?_
    rw [abs_sub_comm, abs_of_nonneg (sub_nonneg.mpr habove), abs_sub_comm,
      abs_of_nonneg (sub_nonneg.mpr (hbelow.trans habove))]
    linarith

end Nearest

theorem two_pow_lt_infinite : (2 : ℚ) ^ 64 < infinite := by
  calc (2 : ℚ) ^ 64 = 2 ^ (64 : ℤ) := by norm_num
    _ ≤ 2 ^ (971 : ℤ) := zpow_le_zpow_right₀ (by norm_num) (by norm_num)
    _ < infinite := by
      rw [cast_infinite]
      exact lt_mul_of_one_lt_left (by positivity) (by norm_num)

/-- A whole number is rounded to a datum, and no datum is nearer to it. -/
theorem exists_nearest_ofInt? {n : ℤ} (hfinite : (n.natAbs : ℚ) < infinite) :
    ∃ y, ofInt? n = some y ∧ ∀ z : Binary64, |y.value - n| ≤ |z.value - n| := by
  rcases Nat.eq_zero_or_pos n.natAbs with hzero | hpos
  · refine ⟨zero (decide (n < 0)), by rw [ofInt?, hzero]; rfl, fun z => ?_⟩
    rw [Int.natAbs_eq_zero.mp hzero]
    have hvalue : (zero (decide ((0 : ℤ) < 0))).value = 0 := by
      simp [value, magnitude, zero]
    rw [hvalue]
    simp
  · have hone : (n.natAbs : ℚ) / (1 : ℕ) = n.natAbs := by rw [Nat.cast_one, div_one]
    obtain ⟨y, hy, hsign, hmagnitude⟩ :=
      exists_ofRatio?_eq hpos Nat.one_pos (decide (n < 0)) (by rwa [hone])
    refine ⟨y, hy, fun z => ?_⟩
    have habs : |(n : ℚ)| = n.natAbs := by rw [Nat.cast_natAbs, Int.cast_abs]
    have hown : |y.value - n| = |y.magnitude - n.natAbs| := by
      unfold value
      rw [hsign]
      by_cases hneg : n < 0
      · have hn : (n : ℚ) = -n.natAbs := by
          rw [← habs, abs_of_neg (by exact_mod_cast hneg), neg_neg]
        rw [if_pos (by simpa using hneg), hn, ← abs_neg]
        ring_nf
      · have hn : (n : ℚ) = n.natAbs := by
          rw [← habs, abs_of_nonneg (by exact_mod_cast not_lt.mp hneg)]
        rw [if_neg (by simpa using hneg), ← hn]
    have hnearest := nearest_magnitude Nat.one_pos hpos z
    rw [hone, ← hmagnitude, ← hown] at hnearest
    calc |y.value - n| ≤ |z.magnitude - n.natAbs| := hnearest
      _ = |(|z.value| - |(n : ℚ)|)| := by rw [abs_value, habs]
      _ ≤ |z.value - n| := abs_abs_sub_abs_le _ _

/-- Whole numbers of up to 53 bits are held exactly, and so is the next power of two. -/
theorem exists_value_eq {n : ℤ} (h : n.natAbs ≤ 2 ^ 53) : ∃ z : Binary64, z.value = n := by
  have hsigned : ∀ (m : ℕ) (e : ℤ) (hcanonical : IsCanonical m e),
      (m : ℚ) * 2 ^ e = n.natAbs → ∃ z : Binary64, z.value = n := by
    intro m e hcanonical hvalue
    refine ⟨⟨decide (n < 0), m, e, hcanonical⟩, ?_⟩
    unfold value magnitude
    rw [hvalue, Nat.cast_natAbs, Int.cast_abs]
    by_cases hneg : n < 0
    · rw [if_pos (by simpa using hneg), abs_of_neg (by exact_mod_cast hneg), neg_neg]
    · rw [if_neg (by simpa using hneg), abs_of_nonneg (by exact_mod_cast not_lt.mp hneg)]
  rcases Nat.eq_zero_or_pos n.natAbs with hzero | hpos
  · refine hsigned 0 (-1074) (by decide) ?_
    rw [hzero, Nat.cast_zero, zero_mul]
  · rcases h.eq_or_lt with htop | hlt
    · refine hsigned hiddenBit 1 (by decide) ?_
      rw [htop]
      norm_num
    · have hlog : n.natAbs.log2 < 53 := (Nat.log2_lt hpos.ne').mpr hlt
      have hlow : 2 ^ n.natAbs.log2 ≤ n.natAbs := Nat.log2_self_le hpos.ne'
      have hhigh : n.natAbs < 2 ^ (n.natAbs.log2 + 1) := Nat.lt_log2_self
      have hsplit : 2 ^ n.natAbs.log2 * 2 ^ (52 - n.natAbs.log2) = hiddenBit := by
        rw [← Nat.pow_add, Nat.add_sub_cancel' (by omega)]
      refine hsigned (n.natAbs * 2 ^ (52 - n.natAbs.log2)) (-(52 - n.natAbs.log2 : ℕ)) ?_ ?_
      · refine Or.inl ⟨?_, ?_, by omega, by omega⟩
        · rw [← hsplit]
          exact Nat.mul_le_mul_right _ hlow
        · calc n.natAbs * 2 ^ (52 - n.natAbs.log2)
              < 2 ^ (n.natAbs.log2 + 1) * 2 ^ (52 - n.natAbs.log2) :=
                Nat.mul_lt_mul_of_pos_right hhigh (Nat.pow_pos (by decide))
            _ = 2 * hiddenBit := by rw [Nat.pow_succ', Nat.mul_assoc, hsplit]
      · rw [zpow_neg, zpow_natCast]
        push_cast
        rw [mul_assoc, mul_inv_cancel₀ (by positivity), mul_one]

end Binary64
end Schemata
