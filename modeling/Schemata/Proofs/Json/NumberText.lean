import Schemata.Proofs.Json.Reader

/-!
# Reading the texts of numbers

A run of decimal digits is read as the number that it denotes, as long as that number fits into
64 bits.  Whole numbers are therefore read back as they were written, and the text of a decimal
leads to its coefficient and its exponent, whichever way it is laid out.
-/

namespace Schemata.Json

/-- What may follow a number inside an array or an object, or at the end of a text. -/
def Closes (rest : List Char) : Prop :=
  ∀ c tail, rest = c :: tail → c = ',' ∨ c = ']' ∨ c = '\x7d'

theorem closes_nil : Closes [] := by
  intro c tail h
  simp at h

theorem closes_cons {c : Char} {tail : List Char} (h : c = ',' ∨ c = ']' ∨ c = '\x7d') :
    Closes (c :: tail) := by
  intro d more heq
  simp only [List.cons.injEq] at heq
  exact heq.1 ▸ h

/-- No digit, decimal point or exponent follows. -/
def EndsNumber (rest : List Char) : Prop :=
  ∀ c tail, rest = c :: tail → digit? c = none ∧ c ≠ '.' ∧ c ≠ 'e' ∧ c ≠ 'E'

/-- All characters are decimal digits. -/
def AllDigits (digits : List Char) : Prop :=
  ∀ c ∈ digits, c.isDigit = true

theorem digit?_of_isDigit {c : Char} (h : c.isDigit = true) :
    digit? c = some (c.toNat - '0'.toNat) := by
  have hrange : '0' ≤ c ∧ c ≤ '9' := by
    simpa [Char.isDigit, Char.le_def] using h
  rw [digit?, if_pos hrange]
  rfl

theorem digit?_eq_none_of_closes {c : Char} (h : c = ',' ∨ c = ']' ∨ c = '\x7d') :
    digit? c = none := by
  rcases h with rfl | rfl | rfl <;> decide

theorem Closes.endsNumber {rest : List Char} (h : Closes rest) : EndsNumber rest := by
  intro c tail heq
  have hc := h c tail heq
  refine ⟨digit?_eq_none_of_closes hc, ?_⟩
  rcases hc with rfl | rfl | rfl <;> decide

theorem allDigits_toDigits (n : Nat) : AllDigits (Nat.toDigits 10 n) :=
  fun _ hc => Nat.isDigit_of_mem_toDigits (by decide) (by decide) hc

theorem le_ofDigitChars (digits : List Char) (n : Nat) : n ≤ Nat.ofDigitChars 10 digits n := by
  rw [Nat.ofDigitChars_eq_ofDigitChars_zero]
  have hpow : 1 ≤ 10 ^ digits.length := Nat.one_le_pow _ _ (by decide)
  have hmul : 1 * n ≤ 10 ^ digits.length * n := Nat.mul_le_mul_right n hpow
  omega

/-- The next digit of a number that stays below a bound. -/
theorem appendDigit?_of_lt {bound n : Nat} {c : Char} {digits : List Char}
    (h : Nat.ofDigitChars 10 (c :: digits) n < bound) :
    appendDigit? bound n (c.toNat - '0'.toNat) = some (10 * n + (c.toNat - '0'.toNat)) := by
  rw [Nat.ofDigitChars_cons] at h
  have hle := le_ofDigitChars digits (10 * n + (c.toNat - '0'.toNat))
  rw [appendDigit?, if_pos (by omega), Nat.mul_comm]

theorem ofDigitChars_lt_of_cons {bound n : Nat} {c : Char} {digits : List Char}
    (h : Nat.ofDigitChars 10 (c :: digits) n < bound) :
    Nat.ofDigitChars 10 digits (10 * n + (c.toNat - '0'.toNat)) < bound := by
  rwa [Nat.ofDigitChars_cons] at h

section Digits

variable {negative : Bool} {digits rest : List Char} {n : Nat}

theorem readNumberFrom_digits (hdigits : AllDigits digits)
    (h : Nat.ofDigitChars 10 digits n < 18446744073709551616) :
    readNumberFrom negative n (digits ++ rest) =
      readNumberFrom negative (Nat.ofDigitChars 10 digits n) rest := by
  induction digits generalizing n with
  | nil => rw [List.nil_append, Nat.ofDigitChars_nil]
  | cons c digits ih =>
    have hc : c.isDigit = true := hdigits c List.mem_cons_self
    rw [List.cons_append, readNumberFrom, digit?_of_isDigit hc]
    simp only [appendDigit?_of_lt h]
    rw [ih (fun d hd => hdigits d (List.mem_cons_of_mem _ hd)) (ofDigitChars_lt_of_cons h),
      Nat.ofDigitChars_cons]

theorem readNumberFrom_end (h : EndsNumber rest) :
    readNumberFrom negative n rest = wholeNumber negative n rest := by
  cases rest with
  | nil => rfl
  | cons c tail =>
    obtain ⟨hdigit, hpoint, he, hE⟩ := h c tail rfl
    rw [readNumberFrom, hdigit]
    simp only [if_neg hpoint, if_neg (not_or.mpr ⟨he, hE⟩)]

theorem readFraction_digits {seen : Bool} {exponent : Int} (hdigits : AllDigits digits)
    (hseen : seen = true ∨ digits ≠ [])
    (h : Nat.ofDigitChars 10 digits n < 18446744073709551616)
    (hrest : ∀ c tail, rest = c :: tail → digit? c = none) :
    readFraction negative seen n exponent (digits ++ rest) =
      readScale negative (Nat.ofDigitChars 10 digits n) (exponent - digits.length) rest := by
  induction digits generalizing n seen exponent with
  | nil =>
    obtain rfl : seen = true := hseen.resolve_right fun hne => hne rfl
    rw [List.nil_append, Nat.ofDigitChars_nil]
    cases rest with
    | nil => simp [readFraction]
    | cons c tail => simp [readFraction, hrest c tail rfl]
  | cons c digits ih =>
    have hc : c.isDigit = true := hdigits c List.mem_cons_self
    rw [List.cons_append, readFraction, digit?_of_isDigit hc]
    simp only [appendDigit?_of_lt h]
    rw [ih (fun d hd => hdigits d (List.mem_cons_of_mem _ hd)) (Or.inl rfl)
      (ofDigitChars_lt_of_cons h), Nat.ofDigitChars_cons]
    congr 1
    rw [List.length_cons]
    omega

theorem readScale_closes {exponent : Int} (h : Closes rest) :
    readScale negative n exponent rest = floatOfParts negative n exponent rest := by
  cases rest with
  | nil => rfl
  | cons c tail =>
    rcases h c tail rfl with rfl | rfl | rfl <;> rfl

theorem readExponentDigits_digits {before : Int} {down : Bool} {exponent : Nat}
    (hdigits : AllDigits digits) (h : Nat.ofDigitChars 10 digits exponent < 2147483648)
    (hrest : Closes rest) :
    readExponentDigits negative n before down exponent (digits ++ rest) =
      floatOfParts negative n
        (if down then before - (Nat.ofDigitChars 10 digits exponent : Nat)
          else before + (Nat.ofDigitChars 10 digits exponent : Nat)) rest := by
  induction digits generalizing exponent with
  | nil =>
    rw [List.nil_append, Nat.ofDigitChars_nil]
    cases rest with
    | nil => rfl
    | cons c tail =>
      rw [readExponentDigits, digit?_eq_none_of_closes (hrest c tail rfl)]
      rfl
  | cons c digits ih =>
    have hc : c.isDigit = true := hdigits c List.mem_cons_self
    rw [List.cons_append, readExponentDigits, digit?_of_isDigit hc]
    simp only [appendDigit?_of_lt h]
    rw [ih (fun d hd => hdigits d (List.mem_cons_of_mem _ hd)) (ofDigitChars_lt_of_cons h),
      Nat.ofDigitChars_cons]

end Digits

/-! ## The first digit -/

theorem digitChar_ne_zero : ∀ d < 10, 0 < d → Nat.digitChar d ≠ '0' := by
  decide

theorem head_toDigits {n : Nat} (hn : 0 < n) :
    ∃ c tail, Nat.toDigits 10 n = c :: tail ∧ c.isDigit = true ∧ c ≠ '0' := by
  induction n using Nat.strongRecOn with
  | ind n ih =>
    by_cases hlt : n < 10
    · refine ⟨Nat.digitChar n, [], Nat.toDigits_of_lt_base hlt, ?_, digitChar_ne_zero n hlt hn⟩
      rw [Nat.isDigit_digitChar, decide_eq_true hlt]
    · obtain ⟨c, tail, htail, hc⟩ := ih (n / 10) (by omega) (by omega)
      refine ⟨c, tail ++ [Nat.digitChar (n % 10)], ?_, hc⟩
      rw [Nat.toDigits_of_base_le (by decide) (by omega), htail]
      rfl

/-- Digits that do not start with a zero are read from the first one on. -/
theorem readUnsigned_of_ne_zero {negative : Bool} {c : Char} {tail : List Char}
    (hc : c.isDigit = true) (hne : c ≠ '0') :
    readUnsigned negative (c :: tail) = readNumberFrom negative 0 (c :: tail) := by
  have hdigit := digit?_of_isDigit hc
  have hrange : 48 ≤ c.toNat ∧ c.toNat ≤ 57 := by
    simpa [Char.isDigit, UInt32.le_iff_toNat_le] using hc
  have hzero : '0'.toNat = 48 := rfl
  have hfirst : c.toNat ≠ 48 := fun h => hne (Char.toNat_inj.mp h)
  obtain ⟨d, hd⟩ : ∃ d, c.toNat - '0'.toNat = d + 1 := ⟨c.toNat - 49, by omega⟩
  have happend : appendDigit? 18446744073709551616 0 (d + 1) = some (d + 1) := by
    rw [appendDigit?, if_pos (by omega), Nat.zero_mul, Nat.zero_add]
  rw [hd] at hdigit
  rw [readNumberFrom, hdigit]
  unfold readUnsigned
  simp only [hdigit, happend]

/-! ## Whole numbers -/

theorem readUnsigned_toDigits {negative : Bool} {n : Nat} {rest : List Char}
    (hn : n < 18446744073709551616) (hrest : EndsNumber rest) :
    readUnsigned negative (Nat.toDigits 10 n ++ rest) = wholeNumber negative n rest := by
  rcases Nat.eq_zero_or_pos n with rfl | hpos
  · rw [Nat.toDigits_zero, List.singleton_append]
    have hdigit : digit? '0' = some 0 := by decide
    unfold readUnsigned
    simp only [hdigit]
    cases rest with
    | nil => rfl
    | cons c tail =>
      simp only [(hrest c tail rfl).1, Option.isSome_none, Bool.false_eq_true, if_false]
      exact readNumberFrom_end hrest
  · obtain ⟨c, tail, htoDigits, hc, hne⟩ := head_toDigits hpos
    have hvalue : Nat.ofDigitChars 10 (Nat.toDigits 10 n) 0 = n := Nat.ofDigitChars_ten_toDigits
    have hread : readNumberFrom negative 0 (Nat.toDigits 10 n ++ rest) =
        readNumberFrom negative n rest := by
      rw [readNumberFrom_digits (allDigits_toDigits n) (hvalue.symm ▸ hn), hvalue]
    rw [← readNumberFrom_end hrest, ← hread, htoDigits, List.cons_append]
    exact readUnsigned_of_ne_zero hc hne

/-- A number from its first character on: a minus sign or a digit. -/
def readSigned : List Char → Reading Number
  | '-' :: text => readUnsigned true text
  | text => readUnsigned false text

theorem wholeNumber_eq {n : Int} (h : leastWhole ≤ n ∧ n ≤ greatestWhole) {rest : List Char} :
    wholeNumber (decide (n < 0)) n.natAbs rest = .ok (.whole n h, rest) := by
  have hvalue : (if decide (n < 0) = true then -(n.natAbs : Int) else n.natAbs) = n := by
    simp only [decide_eq_true_eq]
    split <;> omega
  have hzero : ¬ (decide (n < 0) = true ∧ n.natAbs = 0) := by
    simp only [decide_eq_true_eq]
    omega
  unfold wholeNumber
  simp only [hvalue, if_neg hzero, Number.ofInt?, dif_pos h]

/-- Whole numbers are read back as they were written. -/
theorem readSigned_whole {n : Int} (h : leastWhole ≤ n ∧ n ≤ greatestWhole) {rest : List Char}
    (hrest : EndsNumber rest) :
    readSigned ((Number.text .json (.whole n h)).toList ++ rest) = .ok (.whole n h, rest) := by
  have hrange : n.natAbs < 18446744073709551616 := by
    unfold leastWhole greatestWhole at h
    omega
  rw [← wholeNumber_eq h]
  unfold Number.text
  by_cases hneg : n < 0
  · simp only [hneg, if_true, decide_true, String.toList_append, Nat.toList_repr]
    exact readUnsigned_toDigits hrange hrest
  · simp only [hneg, if_false, decide_false, Nat.toList_repr]
    rw [← readUnsigned_toDigits hrange hrest]
    unfold readSigned
    split
    · case h_1 heq =>
      have hminus : AllDigits (Nat.toDigits 10 n.natAbs) := allDigits_toDigits _
      cases htoDigits : Nat.toDigits 10 n.natAbs with
      | nil => exact absurd htoDigits Nat.toDigits_ne_nil
      | cons c tail =>
        rw [htoDigits] at heq hminus
        simp only [List.cons_append, List.cons.injEq] at heq
        exact absurd (hminus c List.mem_cons_self) (heq.1 ▸ by decide)
    · rfl

end Schemata.Json
