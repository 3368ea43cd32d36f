import Schemata.Numeric.Decimal
import Schemata.Proofs.Numeric.Rounding

/-!
# The shortest decimal

The grid of seventeen significant digits always has a point among the reals that round to a given
number, so the search for the shortest decimal ends with a hit.  Its coefficient has at most
seventeen digits and its value is no larger than the upper end of those reals.
-/

namespace Schemata
namespace Decimal

open Binary64 (magnitude infinite)

/-- The value of a decimal. -/
def value (d : Decimal) : ℚ :=
  d.coefficient * 10 ^ d.exponent

theorem ten_zpow_eq_div (e : ℤ) :
    (10 : ℚ) ^ e = (10 ^ e.toNat : ℕ) / (10 ^ (-e).toNat : ℕ) := by
  exact_mod_cast Binary64.zpow_eq_div (by decide : 0 < 10) e

section Scaling

variable {m c den : ℕ} {e : ℤ}

/-- Fractions are compared with decimals by multiplying out. -/
theorem scaled_lt_iff (hden : 0 < den) :
    m * 10 ^ (-e).toNat < c * 10 ^ e.toNat * den ↔ (m : ℚ) / den < c * 10 ^ e := by
  have hdenPos : (0 : ℚ) < den := by exact_mod_cast hden
  rw [ten_zpow_eq_div, ← mul_div_assoc, div_lt_div_iff₀ hdenPos (by positivity)]
  norm_cast

theorem lt_scaled_iff (hden : 0 < den) :
    c * 10 ^ e.toNat * den < m * 10 ^ (-e).toNat ↔ (c : ℚ) * 10 ^ e < m / den := by
  have hdenPos : (0 : ℚ) < den := by exact_mod_cast hden
  rw [ten_zpow_eq_div, ← mul_div_assoc, div_lt_div_iff₀ (by positivity) hdenPos]
  norm_cast

end Scaling

namespace Interval

variable {i : Interval} {d : Decimal} {e : ℤ}

theorem value_le_of_contains (hden : 0 < i.den) (h : i.contains d = true) :
    d.value ≤ i.high / i.den := by
  unfold contains at h
  simp only [Nat.pow_eq] at h
  rw [← not_lt, Decimal.value, ← scaled_lt_iff hden, not_lt]
  split at h
  · simp only [Bool.and_eq_true, decide_eq_true_eq] at h
    exact h.2
  · simp only [Bool.and_eq_true, decide_eq_true_eq] at h
    exact h.2.le

theorem contains_of_lt (hden : 0 < i.den) (hlow : (i.low : ℚ) / i.den < d.value)
    (hhigh : d.value < i.high / i.den) : i.contains d = true := by
  rw [Decimal.value, ← scaled_lt_iff hden] at hlow
  rw [Decimal.value, ← lt_scaled_iff hden] at hhigh
  unfold contains
  simp only [Nat.pow_eq]
  split
  · simp only [Bool.and_eq_true, decide_eq_true_eq]
    exact ⟨hlow.le, hhigh.le⟩
  · simp only [Bool.and_eq_true, decide_eq_true_eq]
    exact ⟨hlow, hhigh⟩

theorem reaches_iff (hden : 0 < i.den) :
    i.reaches e = true ↔ (10 : ℚ) ^ e ≤ i.value / i.den := by
  unfold reaches
  rw [decide_eq_true_eq, ← not_lt, ← not_lt, ← one_mul ((10 : ℚ) ^ e), ← Nat.cast_one,
    ← scaled_lt_iff hden, Nat.one_mul]
  rfl

/-! ## The leading digit -/

/-- The logarithm to the base ten is estimated from that to the base two. -/
def estimate (l : ℤ) : ℤ :=
  l * 30103 / 100000

/-- Powers of two and of ten compare as `2 ^ 93 ≤ 10 ^ 28` and `10 ^ 59 ≤ 2 ^ 196` tell. -/
theorem two_zpow_le_ten_zpow {m k : ℤ}
    (h : (0 ≤ m ∧ 28 * m ≤ 93 * k) ∨ (m ≤ 0 ∧ 59 * m ≤ 196 * k)) :
    (2 : ℚ) ^ m ≤ 10 ^ k := by
  rcases h with ⟨hm, hle⟩ | ⟨hm, hle⟩
  · obtain ⟨n, rfl⟩ := Int.eq_ofNat_of_zero_le hm
    refine (pow_le_pow_iff_left₀ (by positivity) (by positivity) (by norm_num : 93 ≠ 0)).mp ?_
    calc ((2 : ℚ) ^ (n : ℤ)) ^ 93 = (2 ^ 93) ^ n := by rw [zpow_natCast, pow_right_comm]
      _ ≤ (10 ^ 28) ^ n := by
          gcongr
          norm_num
      _ = 10 ^ (28 * (n : ℤ)) := by rw [← pow_mul, ← zpow_natCast, Nat.cast_mul, Nat.cast_ofNat]
      _ ≤ 10 ^ (k * (93 : ℕ)) := zpow_le_zpow_right₀ (by norm_num) (by omega)
      _ = (10 ^ k) ^ 93 := by rw [zpow_mul, zpow_natCast]
  · obtain ⟨n, rfl⟩ := Int.exists_eq_neg_ofNat hm
    refine (pow_le_pow_iff_left₀ (by positivity) (by positivity) (by norm_num : 196 ≠ 0)).mp ?_
    calc ((2 : ℚ) ^ (-(n : ℤ))) ^ 196 = ((2 ^ 196) ^ n)⁻¹ := by
          rw [zpow_neg, zpow_natCast, inv_pow, pow_right_comm]
      _ ≤ ((10 ^ 59) ^ n)⁻¹ := by
          gcongr
          norm_num
      _ = 10 ^ (-(59 * (n : ℤ))) := by
          rw [← pow_mul, zpow_neg, ← zpow_natCast, Nat.cast_mul, Nat.cast_ofNat]
      _ ≤ 10 ^ (k * (196 : ℕ)) := zpow_le_zpow_right₀ (by norm_num) (by omega)
      _ = (10 ^ k) ^ 196 := by rw [zpow_mul, zpow_natCast]

theorem ten_zpow_le_two_zpow {m k : ℤ}
    (h : (0 ≤ m ∧ 196 * k ≤ 59 * m) ∨ (m ≤ 0 ∧ 93 * k ≤ 28 * m)) :
    (10 : ℚ) ^ k ≤ 2 ^ m := by
  have hinverse : (2 : ℚ) ^ (-m) ≤ 10 ^ (-k) := two_zpow_le_ten_zpow (by omega)
  rw [zpow_neg, zpow_neg] at hinverse
  exact (inv_le_inv₀ (by positivity) (by positivity)).mp hinverse

theorem estimate_spec {l : ℤ} (hlow : -1074 ≤ l) (hhigh : l < 1024) :
    (10 : ℚ) ^ (estimate l - 1) ≤ 2 ^ l ∧ (2 : ℚ) ^ (l + 1) ≤ 10 ^ (estimate l + 2) := by
  unfold estimate
  exact ⟨ten_zpow_le_two_zpow (by omega), two_zpow_le_ten_zpow (by omega)⟩

theorem leadingExponent_spec (hvalue : 0 < i.value) (hden : 0 < i.den)
    (hlow : (2 : ℚ) ^ (-1074 : ℤ) ≤ i.value / i.den) (hhigh : (i.value : ℚ) / i.den < infinite) :
    (10 : ℚ) ^ i.leadingExponent ≤ i.value / i.den ∧
      (i.value : ℚ) / i.den < 10 ^ (i.leadingExponent + 1) := by
  obtain ⟨hlogLow, hlogHigh⟩ := Binary64.ratioLog2_spec hvalue hden
  set l := Binary64.ratioLog2 i.value i.den with hl
  have hleast : (-1074 : ℤ) < l + 1 :=
    (zpow_lt_zpow_iff_right₀ (by norm_num : (1 : ℚ) < 2)).mp (hlow.trans_lt hlogHigh)
  have hgreatest : l < 971 + 53 :=
    (zpow_lt_zpow_iff_right₀ (by norm_num : (1 : ℚ) < 2)).mp
      (hlogLow.trans_lt (hhigh.trans Binary64.infinite_lt))
  obtain ⟨hpower, hnext⟩ := estimate_spec (by omega : -1074 ≤ l) (by omega)
  have hunfold : i.leadingExponent =
      if i.reaches (estimate l + 1) then estimate l + 1
      else if i.reaches (estimate l) then estimate l else estimate l - 1 := rfl
  rw [hunfold]
  by_cases hupper : i.reaches (estimate l + 1) = true
  · rw [if_pos hupper]
    rw [Int.add_assoc]
    exact ⟨(reaches_iff hden).mp hupper, hlogHigh.trans_le hnext⟩
  · rw [if_neg hupper]
    rw [reaches_iff hden, not_le] at hupper
    by_cases hmiddle : i.reaches (estimate l) = true
    · rw [if_pos hmiddle]
      exact ⟨(reaches_iff hden).mp hmiddle, hupper⟩
    · rw [if_neg hmiddle, Int.sub_add_cancel]
      rw [reaches_iff hden, not_le] at hmiddle
      exact ⟨hpower.trans hlogLow, hmiddle⟩

/-! ## Neighbours on a grid -/

/-- The grid point at or below the value, in units of the grid. -/
def gridFloor (i : Interval) (e : ℤ) : ℕ :=
  i.value * 10 ^ (-e).toNat / (i.den * 10 ^ e.toNat)

theorem gridFloor_spec (hden : 0 < i.den) :
    (i.gridFloor e : ℚ) * 10 ^ e ≤ i.value / i.den ∧
      (i.value : ℚ) / i.den < (i.gridFloor e + 1 : ℕ) * 10 ^ e := by
  have hpos : 0 < i.den * 10 ^ e.toNat := Nat.mul_pos hden (Nat.pow_pos (by decide))
  constructor
  · rw [← not_lt, ← scaled_lt_iff hden, not_lt, Nat.mul_assoc, Nat.mul_comm (10 ^ e.toNat)]
    exact Nat.div_mul_le_self _ _
  · rw [← scaled_lt_iff hden, Nat.mul_assoc, Nat.mul_comm (10 ^ e.toNat), Nat.mul_comm (_ + 1)]
    exact Nat.lt_mul_div_succ _ hpos

theorem neighbour?_eq_some (h : i.neighbour? e = some d) :
    d.exponent = e ∧ i.contains d = true ∧ 0 < d.coefficient ∧
      d.coefficient ≤ i.gridFloor e + 1 := by
  have hfloor : i.value * Nat.pow 10 (-e).toNat / (i.den * Nat.pow 10 e.toNat) = i.gridFloor e :=
    rfl
  unfold neighbour? at h
  simp only [hfloor] at h
  split at h
  · case h_1 hlower hupper =>
    simp only [Bool.and_eq_true, bne_iff_ne, ne_eq] at hlower
    simp only [Option.some.injEq] at h
    split at h
    · subst h
      exact ⟨rfl, hlower.1, Nat.pos_of_ne_zero hlower.2, Nat.le_succ _⟩
    · subst h
      exact ⟨rfl, hupper, Nat.succ_pos _, Nat.le_refl _⟩
  · case h_2 hlower hupper =>
    simp only [Bool.and_eq_true, bne_iff_ne, ne_eq] at hlower
    simp only [Option.some.injEq] at h
    subst h
    exact ⟨rfl, hlower.1, Nat.pos_of_ne_zero hlower.2, Nat.le_succ _⟩
  · case h_3 hlower hupper =>
    simp only [Option.some.injEq] at h
    subst h
    exact ⟨rfl, hupper, Nat.succ_pos _, Nat.le_refl _⟩
  · simp at h

theorem neighbour?_isSome (hfloor : i.gridFloor e ≠ 0)
    (h : i.contains ⟨i.gridFloor e, e⟩ = true ∨ i.contains ⟨i.gridFloor e + 1, e⟩ = true) :
    (i.neighbour? e).isSome := by
  have hunfold : i.value * Nat.pow 10 (-e).toNat / (i.den * Nat.pow 10 e.toNat) = i.gridFloor e :=
    rfl
  unfold neighbour?
  simp only [hunfold]
  split
  · rfl
  · rfl
  · rfl
  · case h_4 hlower hupper =>
    rcases h with h | h
    · simp [h, hfloor] at hlower
    · simp [h] at hupper

/-- A grid that is finer than the interval has a neighbour of the value inside. -/
theorem neighbour?_isSome_of_fine (hden : 0 < i.den) (hfloor : i.gridFloor e ≠ 0)
    (hlow : (i.low : ℚ) / i.den < i.value / i.den) (hhigh : (i.value : ℚ) / i.den < i.high / i.den)
    (hfine : (10 : ℚ) ^ e < i.high / i.den - i.low / i.den) :
    (i.neighbour? e).isSome := by
  obtain ⟨hbelow, habove⟩ := gridFloor_spec (i := i) (e := e) hden
  refine neighbour?_isSome hfloor ?_
  by_cases hlower : (i.low : ℚ) / i.den < i.gridFloor e * 10 ^ e
  · exact Or.inl (contains_of_lt hden hlower (hbelow.trans_lt hhigh))
  · refine Or.inr (contains_of_lt hden (hlow.trans habove) ?_)
    rw [not_lt] at hlower
    rw [Decimal.value]
    push_cast
    linarith

end Interval

/-! ## The interval of a number -/

section OfBinary64

variable {x : Binary64}

theorem ofBinary64_den_pos : 0 < (Interval.ofBinary64 x).den :=
  Nat.pow_pos (by decide)

/-- Parts of the interval are quarters of a unit in the last place. -/
theorem quarters (n : ℕ) (e : ℤ) :
    ((n * Nat.pow 2 (e - 2).toNat : ℕ) : ℚ) / (Nat.pow 2 (2 - e).toNat : ℕ) =
      n / 4 * 2 ^ e := by
  have hquarter : (2 : ℚ) ^ (e - 2) = 2 ^ e / 4 := by
    rw [zpow_sub₀ (by norm_num)]
    norm_num
  have hexponent : 2 - e = -(e - 2) := by ring
  simp only [Nat.pow_eq]
  rw [Nat.cast_mul, mul_div_assoc, hexponent, ← Binary64.two_zpow_eq_div, hquarter]
  ring

theorem ofBinary64_value :
    ((Interval.ofBinary64 x).value : ℚ) / (Interval.ofBinary64 x).den = x.magnitude := by
  refine (quarters (4 * x.significand) x.exponent).trans ?_
  rw [magnitude]
  push_cast
  ring

theorem ofBinary64_high :
    ((Interval.ofBinary64 x).high : ℚ) / (Interval.ofBinary64 x).den =
      (x.significand + 1 / 2) * 2 ^ x.exponent := by
  refine (quarters (4 * x.significand + 2) x.exponent).trans ?_
  push_cast
  ring

/-- How far the interval reaches below the value, in quarters of a unit. -/
def quartersBelow (x : Binary64) : ℕ :=
  if x.significand = Binary64.hiddenBit ∧ x.exponent ≠ -1074 then 1 else 2

theorem ofBinary64_low (hpos : 0 < x.significand) :
    ((Interval.ofBinary64 x).low : ℚ) / (Interval.ofBinary64 x).den =
      (x.significand - quartersBelow x / 4) * 2 ^ x.exponent := by
  have hle : quartersBelow x ≤ 4 * x.significand := by
    unfold quartersBelow
    split <;> omega
  refine (quarters (4 * x.significand - quartersBelow x) x.exponent).trans ?_
  rw [Nat.cast_sub hle]
  push_cast
  ring

theorem quartersBelow_pos : (0 : ℚ) < quartersBelow x := by
  unfold quartersBelow
  split <;> norm_num

/-- The interval is wider than one unit of the seventeenth digit of the value. -/
theorem ofBinary64_wide (hpos : 0 < x.significand) :
    x.magnitude / 10 ^ 16 < (Interval.ofBinary64 x).high / (Interval.ofBinary64 x).den -
      (Interval.ofBinary64 x).low / (Interval.ofBinary64 x).den := by
  have hunit : (0 : ℚ) < 2 ^ x.exponent := by positivity
  have hwidth : (x.significand : ℚ) / 10 ^ 16 < 1 / 2 + quartersBelow x / 4 := by
    unfold quartersBelow
    by_cases hleast : x.significand = Binary64.hiddenBit ∧ x.exponent ≠ -1074
    · rw [if_pos hleast, hleast.1]
      norm_num
    · rw [if_neg hleast]
      have hlt : x.significand < 9007199254740992 := by
        have hcanonical := x.canonical
        unfold Binary64.IsCanonical Binary64.hiddenBit at hcanonical
        omega
      have hlt' : (x.significand : ℚ) < 9007199254740992 := by exact_mod_cast hlt
      norm_num
      linarith
  rw [ofBinary64_high, ofBinary64_low hpos, ← sub_mul, magnitude, mul_div_right_comm]
  refine mul_lt_mul_of_pos_right ?_ hunit
  linarith

/-! ## The search -/

theorem le_magnitude (hpos : 0 < x.significand) : (2 : ℚ) ^ (-1074 : ℤ) ≤ x.magnitude := by
  have hexponent : -1074 ≤ x.exponent := by
    have hcanonical := x.canonical
    unfold Binary64.IsCanonical at hcanonical
    omega
  have hsignificand : (1 : ℚ) ≤ x.significand := by exact_mod_cast hpos
  calc (2 : ℚ) ^ (-1074 : ℤ) = 1 * 2 ^ (-1074 : ℤ) := (one_mul _).symm
    _ ≤ x.significand * 2 ^ x.exponent := by
        gcongr
        norm_num

/-- The exponent of the leading decimal digit of a number. -/
abbrev leading (x : Binary64) : ℤ :=
  (Interval.ofBinary64 x).leadingExponent

theorem leading_spec (hpos : 0 < x.significand) :
    (10 : ℚ) ^ leading x ≤ x.magnitude ∧ x.magnitude < 10 ^ (leading x + 1) := by
  have hvalue : 0 < (Interval.ofBinary64 x).value :=
    Nat.mul_pos (Nat.mul_pos (by decide) hpos) (Nat.pow_pos (by decide))
  have hspec := Interval.leadingExponent_spec hvalue ofBinary64_den_pos
    (by rw [ofBinary64_value]; exact le_magnitude hpos)
    (by rw [ofBinary64_value]; exact x.magnitude_lt_infinite)
  rwa [ofBinary64_value] at hspec

theorem least_leading (hpos : 0 < x.significand) : -1074 ≤ leading x := by
  have hten : (10 : ℚ) ^ (-1074 : ℤ) ≤ 2 ^ (-1074 : ℤ) := by
    rw [zpow_neg, zpow_neg]
    refine inv_anti₀ (by positivity) ?_
    exact zpow_le_zpow_left₀ (by norm_num) (by norm_num) (by norm_num)
  have hlt : (10 : ℚ) ^ (-1074 : ℤ) < 10 ^ (leading x + 1) :=
    (hten.trans (le_magnitude hpos)).trans_lt (leading_spec hpos).2
  have := (zpow_lt_zpow_iff_right₀ (by norm_num : (1 : ℚ) < 10)).mp hlt
  omega

/-- The point below the value on the grid of so many digits more than one. -/
theorem gridFloor_bounds (hpos : 0 < x.significand) (n : ℕ) :
    10 ^ n ≤ (Interval.ofBinary64 x).gridFloor (leading x - n) ∧
      (Interval.ofBinary64 x).gridFloor (leading x - n) < 10 ^ (n + 1) := by
  obtain ⟨hbelow, habove⟩ := Interval.gridFloor_spec (i := Interval.ofBinary64 x)
    (e := leading x - n) ofBinary64_den_pos
  rw [ofBinary64_value] at hbelow habove
  obtain ⟨hlow, hhigh⟩ := leading_spec hpos
  have hgrid : (0 : ℚ) < 10 ^ (leading x - n) := by positivity
  constructor
  · have hlt : ((10 ^ n : ℕ) : ℚ) * 10 ^ (leading x - n) <
        ((Interval.ofBinary64 x).gridFloor (leading x - n) + 1 : ℕ) * 10 ^ (leading x - n) := by
      calc ((10 ^ n : ℕ) : ℚ) * 10 ^ (leading x - n) = 10 ^ leading x := by
            push_cast
            rw [← zpow_natCast, ← zpow_add₀ (by norm_num), add_sub_cancel]
        _ ≤ x.magnitude := hlow
        _ < _ := habove
    have hlt' := lt_of_mul_lt_mul_right hlt hgrid.le
    exact Nat.lt_succ_iff.mp (by exact_mod_cast hlt')
  · have hlt : ((Interval.ofBinary64 x).gridFloor (leading x - n) : ℚ) * 10 ^ (leading x - n) <
        ((10 ^ (n + 1) : ℕ) : ℚ) * 10 ^ (leading x - n) := by
      calc _ ≤ x.magnitude := hbelow
        _ < 10 ^ (leading x + 1) := hhigh
        _ = ((10 ^ (n + 1) : ℕ) : ℚ) * 10 ^ (leading x - n) := by
            push_cast
            rw [← zpow_natCast, ← zpow_add₀ (by norm_num)]
            congr 1
            push_cast
            ring
    exact_mod_cast lt_of_mul_lt_mul_right hlt hgrid.le

/-- Seventeen digits always suffice. -/
theorem neighbour?_seventeen (hpos : 0 < x.significand) :
    ((Interval.ofBinary64 x).neighbour? (leading x - 16)).isSome := by
  have hunit : (0 : ℚ) < 2 ^ x.exponent := by positivity
  have hfloor : (Interval.ofBinary64 x).gridFloor (leading x - 16) ≠ 0 := by
    have := (gridFloor_bounds hpos 16).1
    exact (Nat.lt_of_lt_of_le (by decide) this).ne'
  refine Interval.neighbour?_isSome_of_fine ofBinary64_den_pos hfloor ?_ ?_ ?_
  · rw [ofBinary64_low hpos, ofBinary64_value, magnitude]
    refine mul_lt_mul_of_pos_right ?_ hunit
    have := quartersBelow_pos (x := x)
    linarith
  · rw [ofBinary64_high, ofBinary64_value, magnitude]
    refine mul_lt_mul_of_pos_right ?_ hunit
    linarith
  · refine lt_of_le_of_lt ?_ (ofBinary64_wide hpos)
    rw [zpow_sub₀ (by norm_num), le_div_iff₀ (by norm_num)]
    norm_num
    exact (leading_spec hpos).1

/-- What the search for the shortest decimal finds. -/
theorem exists_hit (hpos : 0 < x.significand) :
    ∃ d, (List.range 17).findSome? (fun (n : ℕ) =>
        (Interval.ofBinary64 x).neighbour? (leading x - n)) = some d ∧
      -1090 ≤ d.exponent ∧ 0 < d.coefficient ∧ d.coefficient ≤ 10 ^ 17 ∧
        d.value ≤ (x.significand + 1 / 2) * 2 ^ x.exponent := by
  obtain ⟨last, hlast⟩ := Option.isSome_iff_exists.mp (neighbour?_seventeen hpos)
  obtain ⟨d, hd⟩ : ∃ d, (List.range 17).findSome? (fun (n : ℕ) =>
      (Interval.ofBinary64 x).neighbour? (leading x - n)) = some d := by
    refine Option.isSome_iff_exists.mp (List.findSome?_isSome_iff.mpr ⟨16, by decide, ?_⟩)
    exact neighbour?_seventeen hpos
  obtain ⟨n, hn, hneighbour⟩ := List.exists_of_findSome?_eq_some hd
  have hlt : n < 17 := List.mem_range.mp hn
  obtain ⟨hexponent, hcontains, hcoefficient, hle⟩ := Interval.neighbour?_eq_some hneighbour
  refine ⟨d, hd, ?_, hcoefficient, ?_, ?_⟩
  · have := least_leading hpos
    omega
  · calc d.coefficient ≤ (Interval.ofBinary64 x).gridFloor (leading x - n) + 1 := hle
      _ ≤ 10 ^ (n + 1) := (gridFloor_bounds hpos n).2
      _ ≤ 10 ^ 17 := Nat.pow_le_pow_right (by decide) (by omega)
  · rw [← ofBinary64_high]
    exact Interval.value_le_of_contains ofBinary64_den_pos hcontains

theorem stripZeros_spec (fuel : ℕ) {d : Decimal} (hpos : 0 < d.coefficient) :
    (stripZeros fuel d).value = d.value ∧ 0 < (stripZeros fuel d).coefficient ∧
      (stripZeros fuel d).coefficient ≤ d.coefficient ∧
        d.exponent ≤ (stripZeros fuel d).exponent := by
  induction fuel generalizing d with
  | zero => exact ⟨rfl, hpos, Nat.le_refl _, le_refl _⟩
  | succ fuel ih =>
    rw [stripZeros]
    by_cases hzero : d.coefficient % 10 = 0
    · rw [if_pos hzero]
      obtain ⟨hvalue, hcoefficient, hle, hexponent⟩ :=
        @ih ⟨d.coefficient / 10, d.exponent + 1⟩ (by change 0 < d.coefficient / 10; omega)
      simp only at hle hexponent
      refine ⟨hvalue.trans ?_, hcoefficient, by omega, by omega⟩
      have hten : ((d.coefficient / 10 : ℕ) : ℚ) * 10 = d.coefficient := by
        exact_mod_cast Nat.div_mul_cancel (Nat.dvd_of_mod_eq_zero hzero)
      simp only [value]
      rw [zpow_add_one₀ (by norm_num), mul_comm ((10 : ℚ) ^ d.exponent), ← mul_assoc, hten]
    · rw [if_neg hzero]
      exact ⟨rfl, hpos, Nat.le_refl _, le_refl _⟩

/-- The shortest decimal has few digits and is no larger than the reals that round to `x`. -/
theorem shortest_spec (hpos : 0 < x.significand) :
    -1090 ≤ (shortest x).exponent ∧ 0 < (shortest x).coefficient ∧
      (shortest x).coefficient ≤ 10 ^ 17 ∧
        (shortest x).value ≤ (x.significand + 1 / 2) * 2 ^ x.exponent := by
  obtain ⟨d, hd, hexponent, hcoefficient, hle, hvalue⟩ := exists_hit hpos
  have hunfold : shortest x = stripZeros 17 d := by
    unfold shortest
    simp only [hd]
    rfl
  rw [hunfold]
  obtain ⟨hsame, hpos', hle', hexponent'⟩ := stripZeros_spec 17 hcoefficient
  exact ⟨hexponent.trans hexponent', hpos', hle'.trans hle, hsame ▸ hvalue⟩

end OfBinary64
end Decimal
end Schemata
