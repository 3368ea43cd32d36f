import Schemata.Json.Equality
import Schemata.Validation.Schema
import Schemata.Validation.Violation

/-!
# Checking values

`Schema.check` walks a schema and a value together and logs every violation with the path it was
found at.  A node without a recognised type accepts everything.  Under a union the members are
tried in order, and only if each of them finds something is anything logged: all their violations,
at the node's own path.
-/

namespace Schemata.Validation

open Json (Members Number Value)

/-- What a check depends on besides schema and value: the search for a pattern in a text, and
whether undeclared keys are accepted where the schema does not say. -/
structure Policy where
  search : String → String → Bool
  allowAdditional : Bool

/-- The violation, if the condition holds. -/
def reportIf (condition : Bool) (path : String) (v : Violation) : Log :=
  if condition then [(path, v)] else []

/-- The path one step below another. -/
def below (path step : String) : String :=
  path ++ "." ++ step

namespace Facets

/-- A value must equal one of those listed, if any are. -/
def checkAllowed (f : Facets) (v : Value) (path : String) : Log :=
  match f.allowed with
  | none => []
  | some allowed => reportIf (!allowed.any fun a => a.equal v) path (.notListed allowed)

/-- A number must lie between the bounds and be listed. -/
def checkNumber (f : Facets) (n : Number) (path : String) : Log :=
  (match f.minimum with
    | none => []
    | some bound => reportIf (n.compareValue bound == .lt) path (.belowMinimum bound)) ++
  (match f.maximum with
    | none => []
    | some bound => reportIf (n.compareValue bound == .gt) path (.aboveMaximum bound)) ++
  f.checkAllowed (.number n) path

/-- A string must match the pattern, keep the bounds on its length in characters, and be
listed. -/
def checkString (f : Facets) (policy : Policy) (s : String) (path : String) : Log :=
  (match f.pattern with
    | none => []
    | some pattern =>
      reportIf (!policy.search pattern s) path (.patternMismatch pattern)) ++
  (match f.maxLength with
    | none => []
    | some limit => reportIf (limit < s.length) path (.tooLong limit)) ++
  (match f.minLength with
    | none => []
    | some limit => reportIf (s.length < limit) path (.tooShort limit)) ++
  f.checkAllowed (.string s) path

/-- The violation of the bounds on the number of items, of which the lower one comes first. -/
def itemCount? (f : Facets) (count : Nat) : Option Violation :=
  match f.minItems, f.maxItems with
  | some least, most =>
    if count < least then some (.tooFewItems least)
    else most.bind fun most => if most < count then some (.tooManyItems most) else none
  | none, most => most.bind fun most => if most < count then some (.tooManyItems most) else none

/-- Keys that a node does not declare are accepted if it says so, or says nothing and the policy
accepts them. -/
def acceptsAdditional (f : Facets) (policy : Policy) : Bool :=
  f.additional.getD policy.allowAdditional

/-- Every key must be declared unless others are accepted. -/
def checkKeys (f : Facets) (policy : Policy) (declared : List String) (members : Members)
    (path : String) : Log :=
  if f.acceptsAdditional policy then []
  else
    (members.keys.filter fun key => !declared.contains key).map fun key =>
      (below path key, .undeclared)

end Facets

/-- The violations of a union's member, told at the path of the union in the order of paths. -/
def memberLog (type : SchemaType) (path : String) (log : Log) : Log :=
  (log.mergeSort fun a b => decide (a.1 ≤ b.1)).map fun (place, v) =>
    (path, .ofMember type (if place = path then none else some place) v)

/-- Tries the members of a union in order: `none` if one of them finds nothing, otherwise what
all of them found. -/
def tryMembers (trial : SchemaType → Log) (path : String) : List SchemaType → Option Log
  | [] => some []
  | t :: rest =>
    match trial t with
    | [] => none
    | log => (tryMembers trial path rest).map (memberLog t path log ++ ·)

namespace Schema

mutual

/-- The violations of a value at a path. -/
def check (policy : Policy) : Schema → Value → String → Log
  | node decl facets properties items, v, path =>
    let asType : SchemaType → Log := fun type =>
      match type, v with
      | .any, _ => []
      | .null, .null => []
      | .null, _ => [(path, .notNull)]
      | .boolean, .bool _ => []
      | .boolean, _ => [(path, .notBoolean)]
      | .number, .number n => facets.checkNumber n path
      | .number, _ => [(path, .notNumber)]
      | .integer, .number n =>
        if n.isWhole then facets.checkNumber n path else [(path, .notInteger)]
      | .integer, _ => [(path, .notInteger)]
      | .string, .string s => facets.checkString policy s path
      | .string, _ => [(path, .notString)]
      | .array, .array values =>
        match facets.itemCount? values.length with
        | some violation => [(path, violation)]
        | none =>
          reportIf (facets.uniqueItems && Value.hasDuplicates values) path .repeatedItems ++
            checkItems policy items values path
      | .array, _ => [(path, .notArray)]
      | .object, .object members =>
        checkProperties policy properties members path ++
          facets.checkKeys policy (properties.map (·.1)) members path
      | .object, _ => [(path, .notObject)]
    match decl with
    | none => []
    | some (.single type) => asType type
    | some (.union types) => (tryMembers asType path types).getD []

/-- Declared properties that are present are checked, and required ones must be present. -/
def checkProperties (policy : Policy) : List (String × Schema) → Members → String → Log
  | [], _, _ => []
  | (name, schema) :: rest, members, path =>
    (match Members.find? name members with
      | some v => check policy schema v (below path name)
      | none => reportIf schema.facets.required (below path name) .undefined) ++
    checkProperties policy rest members path

/-- The items of an array are checked by the one schema for all, or by position. -/
def checkItems (policy : Policy) : Items Schema → List Value → String → Log
  | .free, _, _ => []
  | .each schema, values, path =>
    values.zipIdx.flatMap fun (v, index) => check policy schema v (below path (Nat.repr index))
  | .tuple schemas, values, path => checkTuple policy schemas values path 0

/-- Items are checked by the schemas at their positions, up to the shorter of the two lists. -/
def checkTuple (policy : Policy) : List Schema → List Value → String → Nat → Log
  | schema :: schemas, v :: values, path, index =>
    check policy schema v (below path (Nat.repr index)) ++
      checkTuple policy schemas values path (index + 1)
  | _, _, _, _ => []

end

end Schema
end Schemata.Validation
