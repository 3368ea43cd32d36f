import Schemata.Registry
import Schemata.Validation.Recall
import Schemata.Validation.Report

/-!
# Validators

A validator has a policy and remembers the patterns it has compiled from one call to the next.
-/

namespace Schemata.Validation

open Json (Value)

/-- A policy with the patterns compiled so far. -/
structure Validator (μ : Type) where
  engine : Engine μ
  allowAdditional : Bool
  patterns : PatternCache μ

namespace Validator

/-- A validator that has seen no pattern yet. -/
def fresh (engine : Engine μ) (allowAdditional : Bool) : Validator μ :=
  ⟨engine, allowAdditional, []⟩

/-- The policy of a validator. -/
def policy (v : Validator μ) : Policy where
  search := v.patterns.search v.engine
  allowAdditional := v.allowAdditional

/-- Checks an instance at a path and adds to the messages already there. -/
def check (v : Validator μ) (instanceValue schema : Value) (path : String) (errors : Errors) :
    Errors × Validator μ :=
  let (log, patterns) :=
    (Recall.check v.engine v.allowAdditional (.ofValue schema) instanceValue path).run v.patterns
  (errors.addAll log.messages, { v with patterns })

/-- The report on an instance. -/
def validateValue (v : Validator μ) (instanceValue schema : Value) : Report × Validator μ :=
  let (errors, v) := v.check instanceValue schema "$" .empty
  (.ofErrors errors, v)

/-- The report on the text of an instance, against the text of a schema that must be an
object. -/
def validate (v : Validator μ) (instanceText schemaText : String) :
    Except SchemaError Report × Validator μ :=
  match parseDocument inlineName schemaText with
  | .error e => (.error e, v)
  | .ok members =>
    match Value.read instanceText with
    | .error _ => (.ok .malformed, v)
    | .ok value =>
      let (report, v) := v.validateValue value (.object members)
      (.ok { report with instanceText := some value.compact }, v)

end Validator
end Schemata.Validation
