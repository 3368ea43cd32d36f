import Schemata.Proofs.Validation.Errors
import Schemata.Proofs.Validation.Recall

/-!
# Reports are right

A validator's memory of compiled patterns has no influence on what its patterns match, so every
validator that came from a fresh one judges as that one does: the report on an instance is valid
exactly if the instance satisfies the schema, and a check adds a message exactly if it does not.
-/

namespace Schemata.Validation

open Json (Value)

/-- The policy that an engine and a setting mean: a pattern that does not compile matches
nothing. -/
def Policy.ofEngine {μ : Type} (engine : Engine μ) (allowAdditional : Bool) : Policy where
  search pattern text := (engine.compile pattern).any (engine.search · text)
  allowAdditional := allowAdditional

namespace Validator

variable {μ : Type}

/-- The validator after it has reported on instances against schemas, in turn. -/
def afterAll (v : Validator μ) (calls : List (Value × Value)) : Validator μ :=
  calls.foldl (fun v call => (v.validateValue call.1 call.2).2) v

theorem policy_fresh (engine : Engine μ) (allowAdditional : Bool) :
    (fresh engine allowAdditional).policy = .ofEngine engine allowAdditional :=
  rfl

/-- A check collects what the schema finds, whatever patterns are remembered, and remembers
more. -/
theorem exists_check_eq (v : Validator μ) (instanceValue schema : Value) (path : String)
    (errors : Errors) :
    ∃ patterns, v.check instanceValue schema path errors =
      (errors.addAll (Schema.check v.policy (.ofValue schema) instanceValue path).messages,
        { v with patterns := v.patterns.rememberAll v.engine patterns }) := by
  obtain ⟨patterns, hrun⟩ :=
    Recall.answers_check v.engine v.policy (.ofValue schema) instanceValue path v.patterns rfl
  refine ⟨patterns, ?_⟩
  rw [check, show v.allowAdditional = v.policy.allowAdditional from rfl, hrun]

theorem policy_check (v : Validator μ) (instanceValue schema : Value) (path : String)
    (errors : Errors) : (v.check instanceValue schema path errors).2.policy = v.policy := by
  obtain ⟨patterns, hcheck⟩ := v.exists_check_eq instanceValue schema path errors
  rw [hcheck, policy, policy, PatternCache.search_rememberAll]

theorem policy_afterAll (v : Validator μ) (calls : List (Value × Value)) :
    (v.afterAll calls).policy = v.policy := by
  induction calls generalizing v with
  | nil => rfl
  | cons call rest ih => exact (ih _).trans (policy_check v call.1 call.2 "$" .empty)

theorem check_eq_addAll (v : Validator μ) (instanceValue schema : Value) (path : String)
    (errors : Errors) :
    (v.check instanceValue schema path errors).1 =
      errors.addAll (Schema.check v.policy (.ofValue schema) instanceValue path).messages := by
  obtain ⟨patterns, hcheck⟩ := v.exists_check_eq instanceValue schema path errors
  rw [hcheck]

theorem check_eq_self_iff (v : Validator μ) (instanceValue schema : Value) (path : String)
    (errors : Errors) :
    (v.check instanceValue schema path errors).1 = errors ↔
      Satisfies v.policy schema instanceValue := by
  rw [check_eq_addAll, Errors.addAll_eq_self_iff, Log.messages, List.map_eq_nil_iff,
    check_eq_nil_iff]

theorem policy_afterAll_fresh (engine : Engine μ) (allowAdditional : Bool)
    (calls : List (Value × Value)) :
    ((fresh engine allowAdditional).afterAll calls).policy = .ofEngine engine allowAdditional :=
  (policy_afterAll _ calls).trans (policy_fresh engine allowAdditional)

theorem code_eq_valid_iff (v : Validator μ) (instanceValue schema : Value) :
    (v.validateValue instanceValue schema).1.code = .valid ↔
      Satisfies v.policy schema instanceValue := by
  have hcode : (v.validateValue instanceValue schema).1.code =
      if (v.check instanceValue schema "$" .empty).1.isEmpty then .valid else .invalid := rfl
  rw [← v.check_eq_self_iff instanceValue schema "$" .empty, ← Errors.isEmpty_iff, hcode]
  split <;> simp [*]

/-- Codes are the same if the one instance satisfies its schema whenever the other does. -/
theorem code_congr {v w : Validator μ} {value value' schema schema' : Value}
    (h : Satisfies v.policy schema value ↔ Satisfies w.policy schema' value') :
    (v.validateValue value schema).1.code = (w.validateValue value' schema').1.code := by
  have hcode : ∀ (u : Validator μ) (value schema : Value),
      (u.validateValue value schema).1.code = .valid ∨
        (u.validateValue value schema).1.code = .invalid := by
    intro u value schema
    change (if _ then ResultCode.valid else .invalid) = _ ∨
      (if _ then ResultCode.valid else .invalid) = _
    split <;> simp
  rw [← code_eq_valid_iff, ← code_eq_valid_iff] at h
  rcases hcode v value schema with hv | hv <;> rcases hcode w value' schema' with hw | hw <;>
    simp_all

/-- Checks add the same messages if they meet the same at every path. -/
theorem check_congr {v w : Validator μ} (hpolicy : w.policy = v.policy)
    {value value' schema schema' : Value} {path : String}
    (h : Log.Agree (Schema.check v.policy (.ofValue schema) value path)
      (Schema.check v.policy (.ofValue schema') value' path)) (errors : Errors) :
    (v.check value schema path errors).1 = (w.check value' schema' path errors).1 := by
  rw [check_eq_addAll, check_eq_addAll, hpolicy]
  exact errors.addAll_congr h.messages

theorem check_congr_policy {v w : Validator μ} (hpolicy : w.policy = v.policy)
    (value schema : Value) (path : String) (errors : Errors) :
    (v.check value schema path errors).1 = (w.check value schema path errors).1 :=
  check_congr hpolicy (Log.Agree.refl _) errors

theorem validateValue_congr {v w : Validator μ} (hpolicy : w.policy = v.policy)
    (value schema : Value) :
    (v.validateValue value schema).1 = (w.validateValue value schema).1 :=
  congrArg Report.ofErrors (check_congr_policy hpolicy value schema "$" .empty)

end Validator
end Schemata.Validation
