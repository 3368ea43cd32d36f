import Schemata.Json.Number
import Schemata.Proofs.Numeric.Nearest

/-!
# Whole numbers and their words

A whole number has a signed word, an unsigned word or both, and each word means the number it was
taken from.  Two whole numbers without words of one kind lie on different sides of zero.  Rounding
keeps them there, for it goes to a nearest float; so equality, which then compares the floats,
remains exact between whole numbers, and decides just as order does.
-/

namespace Schemata.Json.Number

variable {n m : Int}

/-! ## Words -/

theorem signed?_of_le (h : leastWhole ≤ n ∧ n ≤ greatestWhole) (hle : n ≤ greatestSigned) :
    ∃ i : Int64, (whole n h).signed? = some i ∧ i.toInt = n := by
  refine ⟨.ofInt n, if_pos hle, Int64.toInt_ofInt_of_le h.1 ?_⟩
  exact lt_of_le_of_lt hle (by decide)

theorem signed?_of_lt (h : leastWhole ≤ n ∧ n ≤ greatestWhole) (hlt : greatestSigned < n) :
    (whole n h).signed? = none :=
  if_neg (not_le.mpr hlt)

theorem unsigned?_of_nonneg (h : leastWhole ≤ n ∧ n ≤ greatestWhole) (hle : 0 ≤ n) :
    ∃ u : UInt64, (whole n h).unsigned? = some u ∧ (u.toNat : Int) = n := by
  refine ⟨.ofNat n.toNat, if_pos hle, ?_⟩
  have hsize : n.toNat < UInt64.size := by
    have hgreatest : n ≤ 18446744073709551615 := h.2
    unfold UInt64.size
    omega
  rw [UInt64.toNat_ofNat_of_lt' hsize, Int.toNat_of_nonneg hle]

theorem unsigned?_of_neg (h : leastWhole ≤ n ∧ n ≤ greatestWhole) (hlt : n < 0) :
    (whole n h).unsigned? = none :=
  if_neg (not_le.mpr hlt)

/-- Its signed word means the number it was taken from. -/
theorem ofSigned_of_signed? {a : Number} {i : Int64} (h : a.signed? = some i) : ofSigned i = a := by
  cases a with
  | float x => simp [signed?] at h
  | whole n hn =>
    rcases le_or_gt n greatestSigned with hle | hlt
    · obtain ⟨j, hj, rfl⟩ := signed?_of_le hn hle
      rw [hj, Option.some.injEq] at h
      rw [← h, ofSigned]
    · rw [signed?_of_lt hn hlt] at h
      contradiction

/-- And so does its unsigned word. -/
theorem ofUnsigned_of_unsigned? {a : Number} {u : UInt64} (h : a.unsigned? = some u) :
    ofUnsigned u = a := by
  cases a with
  | float x => simp [unsigned?] at h
  | whole n hn =>
    rcases le_or_gt 0 n with hle | hlt
    · obtain ⟨w, hw, rfl⟩ := unsigned?_of_nonneg hn hle
      rw [hw, Option.some.injEq] at h
      rw [← h, ofUnsigned]
    · rw [unsigned?_of_neg hn hlt] at h
      contradiction

/-- What has neither word is a float. -/
theorem exists_float_of_none {a : Number} (hsigned : a.signed? = none)
    (hunsigned : a.unsigned? = none) : ∃ x, a = float x := by
  cases a with
  | float x => exact ⟨x, rfl⟩
  | whole n hn =>
    rcases le_or_gt 0 n with hle | hlt
    · obtain ⟨u, hu, -⟩ := unsigned?_of_nonneg hn hle
      rw [hu] at hunsigned
      contradiction
    · obtain ⟨i, hi, -⟩ := signed?_of_le hn (hlt.le.trans (by decide))
      rw [hi] at hsigned
      contradiction

@[simp] theorem whole?_whole (h : leastWhole ≤ n ∧ n ≤ greatestWhole) :
    (whole n h).whole? = some n := by
  unfold whole?
  rcases le_or_gt n greatestSigned with hle | hlt
  · obtain ⟨i, hi, hmeans⟩ := signed?_of_le h hle
    rw [hi, Option.map_some, Option.some_or, hmeans]
  · have hnonneg : 0 ≤ n := (show (0 : Int) ≤ greatestSigned by decide).trans hlt.le
    obtain ⟨u, hu, hmeans⟩ := unsigned?_of_nonneg h hnonneg
    rw [signed?_of_lt h hlt, hu, Option.map_none, Option.none_or, Option.map_some, hmeans]

@[simp] theorem whole?_float (x : Binary64) : (float x).whole? = none :=
  rfl

/-! ## Rounding whole numbers -/

/-- A whole number matches no float but a nearest one. -/
theorem nearest_toBinary64 (h : leastWhole ≤ n ∧ n ≤ greatestWhole) (z : Binary64) :
    |(whole n h).toBinary64.value - n| ≤ |z.value - n| := by
  have hbound : n.natAbs < 2 ^ 64 := by
    unfold leastWhole greatestWhole at h
    omega
  have hfinite : (n.natAbs : ℚ) < Binary64.infinite :=
    lt_trans (by exact_mod_cast hbound) Binary64.two_pow_lt_infinite
  obtain ⟨y, hy, hnearest⟩ := Binary64.exists_nearest_ofInt? hfinite
  rw [toBinary64, hy, Option.getD_some]
  exact hnearest z

/-- A positive whole number is rounded to one, or above. -/
theorem one_le_toBinary64 (h : leastWhole ≤ n ∧ n ≤ greatestWhole) (hpos : 0 < n) :
    1 ≤ (whole n h).toBinary64.value := by
  obtain ⟨z, hz⟩ := Binary64.exists_value_eq (n := 1) (by decide)
  have hone : (1 : ℚ) ≤ n := by exact_mod_cast hpos
  have hnearest := nearest_toBinary64 h z
  rw [hz, Int.cast_one, abs_of_nonpos (by linarith : (1 : ℚ) - n ≤ 0)] at hnearest
  linarith [neg_le_of_abs_le hnearest]

/-- A negative whole number is rounded to minus one, or below. -/
theorem toBinary64_le_neg_one (h : leastWhole ≤ n ∧ n ≤ greatestWhole) (hneg : n < 0) :
    (whole n h).toBinary64.value ≤ -1 := by
  obtain ⟨z, hz⟩ := Binary64.exists_value_eq (n := -1) (by decide)
  have hone : (n : ℚ) ≤ -1 := by exact_mod_cast Int.le_sub_one_of_lt hneg
  have hnearest := nearest_toBinary64 h z
  rw [hz, Int.cast_neg, Int.cast_one, abs_of_nonneg (by linarith : (0 : ℚ) ≤ -1 - n)] at hnearest
  linarith [le_of_abs_le hnearest]

theorem toBinary64_ne_of_neg_of_pos (hn : leastWhole ≤ n ∧ n ≤ greatestWhole)
    (hm : leastWhole ≤ m ∧ m ≤ greatestWhole) (hneg : n < 0) (hpos : 0 < m) :
    (whole n hn).toBinary64.value ≠ (whole m hm).toBinary64.value := by
  have hbelow := toBinary64_le_neg_one hn hneg
  have habove := one_le_toBinary64 hm hpos
  linarith

/-! ## Equality and order -/

section Words

variable {a b : Number}

theorem equal_of_signed {i j : Int64} (ha : a.signed? = some i) (hb : b.signed? = some j) :
    a.equal b = (i == j) := by
  rw [equal, ha, hb]

theorem equal_of_unsigned {u w : UInt64} (h : a.signed? = none ∨ b.signed? = none)
    (ha : a.unsigned? = some u) (hb : b.unsigned? = some w) : a.equal b = (u == w) := by
  rw [equal, ha, hb]
  rcases h with h | h <;> rw [h]
  cases a.signed? <;> rfl

theorem equal_of_apart (h : a.signed? = none ∨ b.signed? = none)
    (h' : a.unsigned? = none ∨ b.unsigned? = none) :
    a.equal b = a.toBinary64.sameValue b.toBinary64 := by
  unfold equal
  split
  · case h_1 hi hj => simp [hi, hj] at h
  · split
    · case h_1 hu hw => simp [hu, hw] at h'
    · rfl

end Words

/-- Two whole numbers are equal only if they are the same, whatever words they have. -/
theorem equal_whole (hn : leastWhole ≤ n ∧ n ≤ greatestWhole)
    (hm : leastWhole ≤ m ∧ m ≤ greatestWhole) :
    (whole n hn).equal (whole m hm) = true ↔ n = m := by
  by_cases hsigned : n ≤ greatestSigned ∧ m ≤ greatestSigned
  · obtain ⟨i, hi, rfl⟩ := signed?_of_le hn hsigned.1
    obtain ⟨j, hj, rfl⟩ := signed?_of_le hm hsigned.2
    rw [equal_of_signed hi hj, beq_iff_eq, Int64.toInt_inj]
  have hlarge : greatestSigned < n ∨ greatestSigned < m := by
    rwa [not_and_or, not_le, not_le] at hsigned
  have hnone : (whole n hn).signed? = none ∨ (whole m hm).signed? = none :=
    hlarge.imp (signed?_of_lt hn) (signed?_of_lt hm)
  by_cases hunsigned : 0 ≤ n ∧ 0 ≤ m
  · obtain ⟨u, hu, rfl⟩ := unsigned?_of_nonneg hn hunsigned.1
    obtain ⟨w, hw, rfl⟩ := unsigned?_of_nonneg hm hunsigned.2
    rw [equal_of_unsigned hnone hu hw, beq_iff_eq, Int.natCast_inj, UInt64.toNat_inj]
  -- One is negative and the other beyond the signed ones, so that the floats are compared.
  have hneg : n < 0 ∨ m < 0 := by
    rwa [not_and_or, not_le, not_le] at hunsigned
  rw [equal_of_apart hnone (hneg.imp (unsigned?_of_neg hn) (unsigned?_of_neg hm)),
    Binary64.sameValue_iff]
  have hpos : (0 : Int) < greatestSigned := by decide
  rcases hneg with hneg | hneg
  · have hm' : 0 < m := hpos.trans (hlarge.resolve_left (by omega))
    exact iff_of_false (toBinary64_ne_of_neg_of_pos hn hm hneg hm') (by omega)
  · have hn' : 0 < n := hpos.trans (hlarge.resolve_right (by omega))
    exact iff_of_false (toBinary64_ne_of_neg_of_pos hm hn hneg hn').symm (by omega)

theorem equal_float_left (x : Binary64) (b : Number) :
    (float x).equal b = x.sameValue b.toBinary64 :=
  equal_of_apart (.inl rfl) (.inl rfl)

theorem equal_float_right (a : Number) (y : Binary64) :
    a.equal (float y) = a.toBinary64.sameValue y :=
  equal_of_apart (.inr rfl) (.inr rfl)

theorem compareValue_whole (hn : leastWhole ≤ n ∧ n ≤ greatestWhole)
    (hm : leastWhole ≤ m ∧ m ≤ greatestWhole) :
    (whole n hn).compareValue (whole m hm) = compare n m := by
  rw [compareValue, whole?_whole, whole?_whole]

theorem compareValue_float_left (x : Binary64) (b : Number) :
    (float x).compareValue b = x.compareValue b.toBinary64 := by
  rw [compareValue, whole?_float]
  cases b.whole? <;> rfl

theorem compareValue_float_right (a : Number) (y : Binary64) :
    a.compareValue (float y) = a.toBinary64.compareValue y := by
  rw [compareValue, whole?_float]
  cases a.whole? <;> rfl

/-- Neither of two numbers is less exactly if they are equal. -/
theorem compareValue_eq_eq_iff {a b : Number} :
    a.compareValue b = .eq ↔ a.equal b = true := by
  have hfloats : ∀ x y : Binary64, x.compareValue y = .eq ↔ x.sameValue y = true := by
    intro x y
    rw [Binary64.compareValue, Binary64.sameValue, compare_eq_iff_eq, beq_iff_eq]
  cases a with
  | whole n hn =>
    cases b with
    | whole m hm => rw [compareValue_whole, compare_eq_iff_eq, equal_whole]
    | float y => rw [compareValue_float_right, equal_float_right, hfloats]
  | float x => rw [compareValue_float_left, equal_float_left, hfloats]

end Schemata.Json.Number
