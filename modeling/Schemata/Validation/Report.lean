import Schemata.Validation.Errors

/-!
# Validation reports

The outcome of a validation: a code, the messages, and the instance as it was understood.
-/

namespace Schemata.Validation

/-- The overall outcome. -/
inductive ResultCode where
  | valid
  | invalid
  | malformedInput
  | notPerformed
  deriving DecidableEq, Repr

/-- The name of a code in reports. -/
def ResultCode.name : ResultCode → String
  | valid => "VALID"
  | invalid => "INVALID"
  | malformedInput => "MALFORMED_INPUT"
  | notPerformed => "NOT_PERFORMED"

/-- Code, messages, and the text of the instance if it could be read. -/
structure Report where
  code : ResultCode
  errors : Errors
  instanceText : Option String
  deriving DecidableEq, Repr

namespace Report

/-- Nothing has been validated. -/
def notPerformed : Report :=
  ⟨.notPerformed, .empty, none⟩

/-- The instance is not JSON. -/
def malformed : Report :=
  ⟨.malformedInput, Errors.empty.add "$" "is not a valid JSON", none⟩

/-- Valid exactly when there are no messages. -/
def ofErrors (errors : Errors) : Report :=
  ⟨if errors.isEmpty then .valid else .invalid, errors, none⟩

/-- The instance satisfies the schema. -/
def isValid (r : Report) : Bool :=
  r.code == .valid

/-- The report as an object; an instance that could not be read is left out. -/
def toValue (r : Report) : Json.Value :=
  .object ([("code", .string r.code.name), ("errors", r.errors.toValue)] ++
    r.instanceText.toList.map fun text => ("instance", .string text))

end Report
end Schemata.Validation
