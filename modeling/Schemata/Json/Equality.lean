import Schemata.Json.Value

/-!
# Equality of JSON values

Numbers are equal by value, arrays item by item, and objects when they have equally many members
and each member of the first has an equal one under its key in the second.
-/

namespace Schemata.Json.Value

mutual

/-- Equality by value; the order of an object's members does not matter. -/
def equal : Value → Value → Bool
  | null, null => true
  | bool a, bool b => a == b
  | number a, number b => a.equal b
  | string a, string b => a == b
  | array xs, array ys => xs.length == ys.length && equalItems xs ys
  | object xs, object ys => xs.length == ys.length && equalMembers xs ys
  | _, _ => false

/-- The items of the first list equal those of the second, up to the shorter of the two. -/
def equalItems : List Value → List Value → Bool
  | x :: xs, y :: ys => equal x y && equalItems xs ys
  | _, _ => true

/-- Every member of the first list has an equal one under its key in the second. -/
def equalMembers : List (String × Value) → Members → Bool
  | [], _ => true
  | (k, x) :: xs, ys =>
    (match Members.find? k ys with
      | some y => equal x y
      | none => false) && equalMembers xs ys

end

/-- Some item equals a later one. -/
def hasDuplicates : List Value → Bool
  | [] => false
  | v :: rest => rest.any (equal v) || hasDuplicates rest

end Schemata.Json.Value
