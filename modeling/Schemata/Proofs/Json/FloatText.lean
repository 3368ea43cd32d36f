import Mathlib.Algebra.Group.Nat.Defs
import Schemata.Proofs.Json.NumberText

/-!
# Reading the texts of floats

However a decimal is laid out, its text leads to one significand and one power of ten.
-/

namespace Schemata

namespace Decimal

/-- The decimal is written without an exponent. -/
def Positional (d : Decimal) : Prop :=
  -5 ≤ d.exponent + (Nat.toDigits 10 d.coefficient).length - 1 ∧
    d.exponent + (Nat.toDigits 10 d.coefficient).length - 1 ≤ 15

instance (d : Decimal) : Decidable d.Positional :=
  inferInstanceAs (Decidable (_ ∧ _))

/-- The significand and the exponent that are read from the text of a decimal: a whole number is
written with one zero after the point. -/
def writtenParts (d : Decimal) : Nat × Int :=
  if d.Positional ∧ 0 ≤ d.exponent then (d.coefficient * 10 ^ (d.exponent.toNat + 1), -1)
  else (d.coefficient, d.exponent)

end Decimal

namespace Json

open Decimal

variable {negative : Bool} {rest : List Char}

theorem allDigits_append {front back : List Char} (hfront : AllDigits front)
    (hback : AllDigits back) : AllDigits (front ++ back) := by
  intro c hc
  exact (List.mem_append.mp hc).elim (hfront c) (hback c)

theorem allDigits_replicate (n : Nat) : AllDigits (List.replicate n '0') := by
  intro c hc
  rw [List.eq_of_mem_replicate hc]
  decide

theorem allDigits_take {digits : List Char} (h : AllDigits digits) (n : Nat) :
    AllDigits (digits.take n) :=
  fun c hc => h c (List.mem_of_mem_take hc)

theorem allDigits_drop {digits : List Char} (h : AllDigits digits) (n : Nat) :
    AllDigits (digits.drop n) :=
  fun c hc => h c (List.mem_of_mem_drop hc)

theorem ofDigitChars_take_drop {digits : List Char} {n : Nat} :
    Nat.ofDigitChars 10 (digits.drop n) (Nat.ofDigitChars 10 (digits.take n) 0) =
      Nat.ofDigitChars 10 digits 0 := by
  rw [← Nat.ofDigitChars_append, List.take_append_drop]

theorem closes_not_digit (h : Closes rest) : ∀ c tail, rest = c :: tail → digit? c = none :=
  fun c tail heq => digit?_eq_none_of_closes (h c tail heq)

/-- A point after the digits of a whole number starts the fraction. -/
theorem readUnsigned_point {digits fraction : List Char} {c : Char} {tail : List Char}
    (hdigits : digits = c :: tail) (hall : AllDigits digits) (hne : c ≠ '0')
    (hvalue : Nat.ofDigitChars 10 digits 0 < 18446744073709551616) :
    readUnsigned negative (digits ++ '.' :: fraction) =
      readFraction negative false (Nat.ofDigitChars 10 digits 0) 0 fraction := by
  have hread : readNumberFrom negative 0 (digits ++ '.' :: fraction) =
      readNumberFrom negative (Nat.ofDigitChars 10 digits 0) ('.' :: fraction) :=
    readNumberFrom_digits hall hvalue
  have hpoint : digit? '.' = none := by decide
  rw [readNumberFrom, hpoint] at hread
  simp only [if_true] at hread
  rw [← hread, hdigits, List.cons_append]
  exact readUnsigned_of_ne_zero (hall c (hdigits ▸ List.mem_cons_self)) hne

/-- An exponent after the digits of a significand. -/
theorem readExponent_signed {n power : Nat} {before : Int} {down : Bool}
    (hpower : power < 2147483648) (hrest : Closes rest) :
    readExponent negative n before
        ((if down then '-' else '+') :: (Nat.toDigits 10 power ++ rest)) =
      floatOfParts negative n (if down then before - power else before + power) rest := by
  have hall := allDigits_toDigits power
  have hvalue : Nat.ofDigitChars 10 (Nat.toDigits 10 power) 0 = power :=
    Nat.ofDigitChars_ten_toDigits
  cases htoDigits : Nat.toDigits 10 power with
  | nil => exact absurd htoDigits Nat.toDigits_ne_nil
  | cons c tail =>
    rw [htoDigits] at hall hvalue
    have hc : c.isDigit = true := hall c List.mem_cons_self
    have htail : Nat.ofDigitChars 10 tail (c.toNat - '0'.toNat) = power := by
      rw [← hvalue, Nat.ofDigitChars_cons, Nat.mul_zero, Nat.zero_add]
    have hread : readExponentDigits negative n before down (c.toNat - '0'.toNat) (tail ++ rest) =
        floatOfParts negative n (if down then before - power else before + power) rest := by
      rw [readExponentDigits_digits (fun d hd => hall d (List.mem_cons_of_mem _ hd))
        (htail.symm ▸ hpower) hrest, htail]
    rw [← hread]
    cases down <;> simp [readExponent, digit?_of_isDigit hc]

section Layouts

variable {digits : List Char} {c : Char} {tail : List Char}

/-- Digits, zeros, a point and one more zero. -/
theorem readUnsigned_integral {zeros : Nat} (hdigits : digits = c :: tail)
    (hall : AllDigits digits) (hne : c ≠ '0')
    (hvalue : Nat.ofDigitChars 10 digits 0 * 10 ^ (zeros + 1) < 18446744073709551616)
    (hrest : Closes rest) :
    readUnsigned negative (digits ++ List.replicate zeros '0' ++ '.' :: '0' :: rest) =
      floatOfParts negative (Nat.ofDigitChars 10 digits 0 * 10 ^ (zeros + 1)) (-1) rest := by
  have hlong : Nat.ofDigitChars 10 (digits ++ List.replicate zeros '0') 0 =
      Nat.ofDigitChars 10 digits 0 * 10 ^ zeros := by
    rw [Nat.ofDigitChars_append, Nat.ofDigitChars_replicate_zero, Nat.mul_comm]
  have hpow : Nat.ofDigitChars 10 digits 0 * 10 ^ (zeros + 1) =
      10 * (Nat.ofDigitChars 10 digits 0 * 10 ^ zeros) := by
    rw [Nat.pow_succ]
    ac_rfl
  have hzero : Nat.ofDigitChars 10 ['0'] (Nat.ofDigitChars 10 digits 0 * 10 ^ zeros) =
      Nat.ofDigitChars 10 digits 0 * 10 ^ (zeros + 1) := by
    rw [Nat.ofDigitChars_cons, Nat.ofDigitChars_nil, hpow]
    simp
  have hfraction : readFraction negative false (Nat.ofDigitChars 10 digits 0 * 10 ^ zeros) 0
      (['0'] ++ rest) =
        readScale negative (Nat.ofDigitChars 10 digits 0 * 10 ^ (zeros + 1)) (-1) rest := by
    rw [readFraction_digits (by intro d hd; rw [List.mem_singleton.mp hd]; decide)
      (Or.inr (by simp)) (hzero ▸ hvalue) (closes_not_digit hrest), hzero]
    rfl
  have hfirst : digits ++ List.replicate zeros '0' =
      c :: (tail ++ List.replicate zeros '0') := by
    rw [hdigits, List.cons_append]
  rw [readUnsigned_point hfirst (allDigits_append hall (allDigits_replicate zeros)) hne
    (by rw [hlong]; omega), hlong]
  exact hfraction.trans (readScale_closes hrest)

/-- Digits with a point between them. -/
theorem readUnsigned_pointed {whole : Nat} (hdigits : digits = c :: tail)
    (hall : AllDigits digits) (hne : c ≠ '0') (hwhole : 0 < whole)
    (hlength : whole < digits.length)
    (hvalue : Nat.ofDigitChars 10 digits 0 < 18446744073709551616)
    {after : List Char} (hafter : ∀ d more, after = d :: more → digit? d = none) :
    readUnsigned negative (digits.take whole ++ '.' :: (digits.drop whole ++ after)) =
      readScale negative (Nat.ofDigitChars 10 digits 0) (whole - digits.length) after := by
  obtain ⟨more, rfl⟩ : ∃ more, whole = more + 1 := ⟨whole - 1, by omega⟩
  have htake : Nat.ofDigitChars 10 (digits.take (more + 1)) 0 ≤ Nat.ofDigitChars 10 digits 0 := by
    have hle := le_ofDigitChars (digits.drop (more + 1))
      (Nat.ofDigitChars 10 (digits.take (more + 1)) 0)
    rwa [ofDigitChars_take_drop] at hle
  have hdrop : digits.drop (more + 1) ≠ [] := by
    rw [ne_eq, List.drop_eq_nil_iff]
    omega
  have hfirst : digits.take (more + 1) = c :: tail.take more := by
    rw [hdigits, List.take_succ_cons]
  rw [readUnsigned_point hfirst (allDigits_take hall _) hne (by omega),
    readFraction_digits (allDigits_drop hall _) (Or.inr hdrop)
      (by rw [ofDigitChars_take_drop]; exact hvalue) hafter, ofDigitChars_take_drop]
  congr 1
  rw [List.length_drop]
  omega

/-- A zero, a point, more zeros and the digits. -/
theorem readUnsigned_small {zeros : Nat} (hdigits : digits = c :: tail) (hall : AllDigits digits)
    (hvalue : Nat.ofDigitChars 10 digits 0 < 18446744073709551616) (hrest : Closes rest) :
    readUnsigned negative ('0' :: '.' :: (List.replicate zeros '0' ++ digits ++ rest)) =
      floatOfParts negative (Nat.ofDigitChars 10 digits 0) (-(zeros + digits.length)) rest := by
  have hsame : Nat.ofDigitChars 10 (List.replicate zeros '0' ++ digits) 0 =
      Nat.ofDigitChars 10 digits 0 := by
    rw [Nat.ofDigitChars_append, Nat.ofDigitChars_replicate_zero, Nat.mul_zero]
  have hnonempty : List.replicate zeros '0' ++ digits ≠ [] := by simp [hdigits]
  have hfraction : readFraction negative false 0 0 (List.replicate zeros '0' ++ digits ++ rest) =
      floatOfParts negative (Nat.ofDigitChars 10 digits 0)
        (0 - ((List.replicate zeros '0' ++ digits).length : Nat)) rest := by
    rw [readFraction_digits (allDigits_append (allDigits_replicate zeros) hall)
      (Or.inr hnonempty) (hsame.symm ▸ hvalue) (closes_not_digit hrest), hsame,
      readScale_closes hrest]
  rw [List.length_append, List.length_replicate] at hfraction
  have hzero : digit? '0' = some 0 := by decide
  have hpoint : digit? '.' = none := by decide
  have hstart : readUnsigned negative
      ('0' :: '.' :: (List.replicate zeros '0' ++ digits ++ rest)) =
        readFraction negative false 0 0 (List.replicate zeros '0' ++ digits ++ rest) := by
    unfold readUnsigned
    simp only [hzero, hpoint, Option.isSome_none, Bool.false_eq_true, if_false]
    rw [readNumberFrom, hpoint]
    simp only [if_true]
  rw [hstart, hfraction]
  congr 1
  omega

end Layouts

/-! ## Decimals -/

/-- Decimals whose text is read digit by digit, without one that is dropped. -/
structure Readable (d : Decimal) : Prop where
  positive : 0 < d.coefficient
  coefficient_le : d.coefficient ≤ 10 ^ 17
  exponent_range : -2000 ≤ d.exponent ∧ d.exponent ≤ 2000

theorem length_digits_le {d : Decimal} (h : Readable d) :
    (Nat.toDigits 10 d.coefficient).length ≤ 18 := by
  rw [Nat.length_toDigits_le_iff (by decide) (by decide)]
  have := h.coefficient_le
  omega

theorem coefficient_lt {d : Decimal} (h : Readable d) :
    d.coefficient < 18446744073709551616 := by
  have := h.coefficient_le
  omega

/-- The significand of a whole number with one decimal place. -/
theorem shifted_coefficient_lt {d : Decimal}
    (hlength : d.exponent.toNat + (Nat.toDigits 10 d.coefficient).length ≤ 16) :
    d.coefficient * 10 ^ (d.exponent.toNat + 1) < 18446744073709551616 := by
  have hlt : d.coefficient < 10 ^ (Nat.toDigits 10 d.coefficient).length :=
    (Nat.length_toDigits_le_iff (by decide) Nat.length_toDigits_pos).mp (Nat.le_refl _)
  calc
    d.coefficient * 10 ^ (d.exponent.toNat + 1) ≤
        10 ^ (Nat.toDigits 10 d.coefficient).length * 10 ^ (d.exponent.toNat + 1) :=
      Nat.mul_le_mul_right _ (Nat.le_of_lt hlt)
    _ = 10 ^ ((Nat.toDigits 10 d.coefficient).length + (d.exponent.toNat + 1)) :=
      (Nat.pow_add _ _ _).symm
    _ ≤ 10 ^ 17 := Nat.pow_le_pow_right (by decide) (by omega)
    _ < 18446744073709551616 := by decide

/-- The exponent brings the point back behind the digits. -/
theorem readExponent_leading {d : Decimal} (h : Readable d) (hrest : Closes rest) {leading : Int}
    (hleading : leading = d.exponent + (Nat.toDigits 10 d.coefficient).length - 1) {sign : Char}
    (hsign : sign = if leading < 0 then '-' else '+') {before : Int}
    (hbefore : before = 1 - ((Nat.toDigits 10 d.coefficient).length : Int)) :
    readExponent negative d.coefficient before
        (sign :: (Nat.toDigits 10 leading.natAbs ++ rest)) =
      floatOfParts negative d.coefficient d.exponent rest := by
  have hlength := length_digits_le h
  have hrange := h.exponent_range
  have hsigned : readExponent negative d.coefficient before
      ((if decide (leading < 0) = true then '-' else '+') ::
        (Nat.toDigits 10 leading.natAbs ++ rest)) = _ :=
    readExponent_signed (by omega) hrest
  simp only [decide_eq_true_eq] at hsigned
  rw [hsign, hsigned]
  congr 1
  split <;> omega

/-- A significand with its exponent, as scientific notation lays them out. -/
theorem readUnsigned_scientific {d : Decimal} (h : Readable d) (hrest : Closes rest)
    {leading : Int} (hleading : leading = d.exponent + (Nat.toDigits 10 d.coefficient).length - 1)
    {sign : Char} (hsign : sign = if leading < 0 then '-' else '+') :
    readUnsigned negative ((Nat.toDigits 10 d.coefficient).take 1 ++
        ((if (Nat.toDigits 10 d.coefficient).length = 1 then []
            else '.' :: (Nat.toDigits 10 d.coefficient).drop 1) ++
          'e' :: sign :: (Nat.toDigits 10 leading.natAbs ++ rest))) =
      floatOfParts negative d.coefficient d.exponent rest := by
  have hall := allDigits_toDigits d.coefficient
  have hvalue : Nat.ofDigitChars 10 (Nat.toDigits 10 d.coefficient) 0 = d.coefficient :=
    Nat.ofDigitChars_ten_toDigits
  have hpositive : 0 < (Nat.toDigits 10 d.coefficient).length := Nat.length_toDigits_pos
  obtain ⟨c, tail, hdigits, hc, hne⟩ := head_toDigits h.positive
  -- What remains after the significand is the same in both layouts.
  have hexponent : ∀ before : Int,
      before = 1 - ((Nat.toDigits 10 d.coefficient).length : Int) →
        readExponent negative d.coefficient before
            (sign :: (Nat.toDigits 10 leading.natAbs ++ rest)) =
          floatOfParts negative d.coefficient d.exponent rest :=
    fun before => readExponent_leading h hrest hleading hsign
  by_cases hone : (Nat.toDigits 10 d.coefficient).length = 1
  · have htail : tail = [] := by
      rw [hdigits, List.length_cons] at hone
      exact List.length_eq_zero_iff.mp (by omega)
    have hfirst : (Nat.toDigits 10 d.coefficient).take 1 = [c] := by rw [hdigits]; rfl
    have hread :
        readNumberFrom negative 0
            ([c] ++ 'e' :: sign :: (Nat.toDigits 10 leading.natAbs ++ rest)) =
          readNumberFrom negative d.coefficient
            ('e' :: sign :: (Nat.toDigits 10 leading.natAbs ++ rest)) := by
      rw [hdigits, htail] at hvalue hall
      rw [readNumberFrom_digits hall (hvalue.symm ▸ coefficient_lt h), hvalue]
    rw [if_pos hone, hfirst, List.nil_append, List.singleton_append, readUnsigned_of_ne_zero hc hne,
      ← List.singleton_append, hread, ← hexponent 0 (by omega)]
    have he : digit? 'e' = none := by decide
    rw [readNumberFrom, he]
    simp only [Char.reduceEq, if_false, true_or, if_true]
  · have he : ∀ d more, 'e' :: sign :: (Nat.toDigits 10 leading.natAbs ++ rest) = d :: more →
        digit? d = none := by
      intro d more heq
      simp only [List.cons.injEq] at heq
      exact heq.1 ▸ by decide
    rw [if_neg hone, List.cons_append, readUnsigned_pointed hdigits hall hne (by decide) (by omega)
      (hvalue.symm ▸ coefficient_lt h) he, hvalue, ← hexponent _ rfl]
    simp [readScale]

/-- The text of a decimal leads to its significand and its exponent. -/
theorem readUnsigned_write {d : Decimal} (h : Readable d) (hrest : Closes rest) :
    readUnsigned negative ((d.write .json).toList ++ rest) =
      floatOfParts negative d.writtenParts.1 d.writtenParts.2 rest := by
  have hall := allDigits_toDigits d.coefficient
  have hvalue : Nat.ofDigitChars 10 (Nat.toDigits 10 d.coefficient) 0 = d.coefficient :=
    Nat.ofDigitChars_ten_toDigits
  obtain ⟨c, tail, hdigits, hc, hne⟩ := head_toDigits h.positive
  unfold Decimal.write Decimal.writtenParts Decimal.Positional
  simp only [Nat.toList_repr, Decimal.Format.json]
  by_cases hpositional : -5 ≤ d.exponent + (Nat.toDigits 10 d.coefficient).length - 1 ∧
      d.exponent + (Nat.toDigits 10 d.coefficient).length - 1 ≤ 15
  · rw [if_pos hpositional]
    by_cases hwhole : 0 ≤ d.exponent
    · have hbound := shifted_coefficient_lt (by omega : d.exponent.toNat +
        (Nat.toDigits 10 d.coefficient).length ≤ 16)
      have hread : readUnsigned negative (Nat.toDigits 10 d.coefficient ++
          List.replicate d.exponent.toNat '0' ++ '.' :: '0' :: rest) = _ :=
        readUnsigned_integral hdigits hall hne (hvalue.symm ▸ hbound) hrest
      rw [hvalue] at hread
      rw [if_pos hwhole, if_pos ⟨hpositional, hwhole⟩, String.toList_ofList, ← hread]
      simp
    · have hno : ¬ ((-5 ≤ d.exponent + (Nat.toDigits 10 d.coefficient).length - 1 ∧
          d.exponent + (Nat.toDigits 10 d.coefficient).length - 1 ≤ 15) ∧ 0 ≤ d.exponent) :=
        fun hboth => hwhole hboth.2
      rw [if_neg hwhole, if_neg hno]
      by_cases hleading : 0 ≤ d.exponent + (Nat.toDigits 10 d.coefficient).length - 1
      · rw [if_pos hleading, String.toList_ofList, List.append_assoc, List.cons_append,
          readUnsigned_pointed hdigits hall hne (by omega) (by omega)
            (hvalue.symm ▸ coefficient_lt h) (closes_not_digit hrest), hvalue,
          readScale_closes hrest]
        congr 1
        omega
      · have hread : readUnsigned negative ('0' :: '.' ::
            (List.replicate (-(d.exponent + (Nat.toDigits 10 d.coefficient).length - 1) - 1).toNat
              '0' ++ Nat.toDigits 10 d.coefficient ++ rest)) = _ :=
          readUnsigned_small hdigits hall (hvalue.symm ▸ coefficient_lt h) hrest
        rw [hvalue] at hread
        rw [if_neg hleading, String.toList_ofList]
        refine Eq.trans ?_ (hread.trans ?_)
        · simp
        · congr 1
          omega
  · have hno : ¬ ((-5 ≤ d.exponent + (Nat.toDigits 10 d.coefficient).length - 1 ∧
        d.exponent + (Nat.toDigits 10 d.coefficient).length - 1 ≤ 15) ∧ 0 ≤ d.exponent) :=
      fun hboth => hpositional hboth.1
    rw [if_neg hpositional, if_neg hno, String.toList_ofList,
      ← readUnsigned_scientific h hrest rfl rfl]
    congr 1
    split <;> split <;> simp

end Json
end Schemata
