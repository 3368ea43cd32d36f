import Schemata.Proofs.Json.NumericEquality
import Schemata.Proofs.Validation.Validator

/-!
# Bounds and listed numbers

A number may be named in a schema by bounds that meet in it, or by being listed alone.  The first
is read with the order of numbers and the second with their equality.  Both leave exactly the
numbers of which neither is less, so the two schemas accept the same instances.
-/

namespace Schemata.Validation

open Json (Members Number Value)

/-! ## Numbers that keep bounds -/

section Numbers

variable {node : Members} {a b c n : Number}

theorem not_lt_and_not_gt_iff :
    (a.compareValue b ≠ .lt ∧ a.compareValue b ≠ .gt) ↔ a.equal b = true := by
  rw [← Number.compareValue_eq_eq_iff]
  cases a.compareValue b <;> simp

/-- Bounds that meet in a number leave the numbers equal to it. -/
theorem numberFits_iff_of_bounds (hmin : Members.find? "minimum" node = some (.number c))
    (hmax : Members.find? "maximum" node = some (.number c))
    (henum : Members.find? "enum" node = none) : NumberFits node n ↔ n.equal c = true := by
  rw [← not_lt_and_not_gt_iff]
  constructor
  · exact fun h => ⟨h.minimum c hmin, h.maximum c hmax⟩
  · rintro ⟨hlt, hgt⟩
    refine ⟨fun bound hbound => ?_, fun bound hbound => ?_, fun allowed hallowed => ?_⟩
    · rw [hmin, Option.some.injEq, Value.number.injEq] at hbound
      exact hbound ▸ hlt
    · rw [hmax, Option.some.injEq, Value.number.injEq] at hbound
      exact hbound ▸ hgt
    · simp [henum] at hallowed

/-- So does the list of that number, without bounds. -/
theorem numberFits_iff_of_listed (hmin : Members.find? "minimum" node = none)
    (hmax : Members.find? "maximum" node = none)
    (henum : Members.find? "enum" node = some (.array [.number c])) :
    NumberFits node n ↔ n.equal c = true := by
  have hlisted : Listed node (.number n) ↔ n.equal c = true := by
    simp [Listed, henum, Value.equal, Number.equal_comm n c]
  rw [← hlisted]
  refine ⟨fun h => h.listed, fun h => ⟨fun bound hbound => ?_, fun bound hbound => ?_, h⟩⟩
  · simp [hmin] at hbound
  · simp [hmax] at hbound

/-- What satisfies a node of numbers is a number that fits. -/
theorem satisfies_number_iff {policy : Policy} {v : Value}
    (htype : Schema.declaration? node = some (.single .number)) :
    Satisfies policy (.object node) v ↔ ∃ n, v = .number n ∧ NumberFits node n := by
  rw [satisfies_object_iff, htype]
  constructor
  · intro h
    obtain ⟨type, hmem, has⟩ := h _ rfl
    obtain rfl : type = .number := by simpa [TypeDecl.members] using hmem
    cases has with
    | number hfits => exact ⟨_, rfl, hfits⟩
  · rintro ⟨n, rfl, hfits⟩ decl hdecl
    obtain rfl := Option.some.inj hdecl
    exact ⟨.number, by simp [TypeDecl.members], .number hfits⟩

end Numbers

namespace Validator

variable {μ : Type}

/-- The schema of the numbers between a number and itself. -/
def bounding (c : Number) : Value :=
  .object [("type", .string "number"), ("minimum", .number c), ("maximum", .number c)]

/-- The schema of the numbers among one. -/
def listing (c : Number) : Value :=
  .object [("type", .string "number"), ("enum", .array [.number c])]

theorem code_bounding_eq_valid_iff (v : Validator μ) (value : Value) (c : Number) :
    (v.validateValue value (bounding c)).1.code = .valid ↔
      ∃ n, value = .number n ∧ n.equal c = true := by
  rw [code_eq_valid_iff, bounding, satisfies_number_iff rfl]
  exact exists_congr fun n => and_congr_right fun _ => numberFits_iff_of_bounds rfl rfl rfl

theorem code_listing_eq_valid_iff (v : Validator μ) (value : Value) (c : Number) :
    (v.validateValue value (listing c)).1.code = .valid ↔
      ∃ n, value = .number n ∧ n.equal c = true := by
  rw [code_eq_valid_iff, listing, satisfies_number_iff rfl]
  exact exists_congr fun n => and_congr_right fun _ => numberFits_iff_of_listed rfl rfl rfl

/-- An instance is valid between a number and itself exactly if it is valid among that number
alone.  For neither of two numbers is less exactly if they are equal, whichever way each is stored;
and two whole numbers are ordered as they are, and equal only if they are the same. -/
theorem bounds_agree_with_listing (v : Validator μ) (value : Value) (c : Number) :
    ((v.validateValue value (bounding c)).1.code = .valid ↔
      (v.validateValue value (listing c)).1.code = .valid) ∧
    (∀ a b : Number, (a.compareValue b ≠ .lt ∧ a.compareValue b ≠ .gt) ↔
      Value.equal (.number a) (.number b) = true) ∧
    ∀ n m hn hm, Number.compareValue (.whole n hn) (.whole m hm) = compare n m ∧
      (Value.equal (.number (.whole n hn)) (.number (.whole m hm)) = true ↔ n = m) := by
  refine ⟨?_, fun a b => ?_, fun n m hn hm => ⟨Number.compareValue_whole hn hm, ?_⟩⟩
  · rw [code_bounding_eq_valid_iff, code_listing_eq_valid_iff]
  · rw [Value.equal]
    exact not_lt_and_not_gt_iff
  · rw [Value.equal]
    exact Number.equal_whole hn hm

end Validator
end Schemata.Validation
