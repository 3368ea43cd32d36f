import Schemata.Grammar

/-!
# Violations

What can be wrong with a value at one place, and how it is told.  A violation met while a member
of a union was tried names that member, and its own place when that lies deeper.
-/

namespace Schemata.Validation

open Json (Number Value)

/-- A string stands for itself, any other value for its JSON text. -/
def plainText : Value → String
  | .string s => s
  | v => v.compact

/-- What is wrong with a value. -/
inductive Violation where
  | notString
  | notInteger
  | notNumber
  | notBoolean
  | notNull
  | notObject
  | notArray
  | patternMismatch (pattern : String)
  | tooLong (limit : Nat)
  | tooShort (limit : Nat)
  | belowMinimum (bound : Number)
  | aboveMaximum (bound : Number)
  | notListed (allowed : List Value)
  | tooFewItems (limit : Nat)
  | tooManyItems (limit : Nat)
  | repeatedItems
  | undefined
  | undeclared
  | ofMember (type : SchemaType) (place : Option String) (inner : Violation)
  deriving Repr

/-- The wording of a violation. -/
def Violation.message : Violation → String
  | notString => "must be a string"
  | notInteger => "must be an integer"
  | notNumber => "must be a number"
  | notBoolean => "must be a boolean"
  | notNull => "must be null"
  | notObject => "must be an object"
  | notArray => "is not an array"
  | patternMismatch pattern => "does not match the regex pattern " ++ pattern
  | tooLong limit => "must be at most " ++ Nat.repr limit ++ " characters long"
  | tooShort limit => "must be at least " ++ Nat.repr limit ++ " characters long"
  | belowMinimum bound => "must be greater than or equal to " ++ bound.text .json
  | aboveMaximum bound => "must be less than or equal to " ++ bound.text .json
  | notListed allowed =>
    "must have one of the given values: " ++ String.intercalate ", " (allowed.map plainText)
  | tooFewItems limit => "must have at least " ++ Nat.repr limit ++ " items"
  | tooManyItems limit => "must have at most " ++ Nat.repr limit ++ " items"
  | repeatedItems => "items must be unique"
  | undefined => "is not defined"
  | undeclared => "is not listed in schema"
  | ofMember type none inner => "type '" ++ type.name ++ "': " ++ inner.message
  | ofMember type (some place) inner =>
    "type '" ++ type.name ++ "': " ++ place ++ " " ++ inner.message

/-- Violations with the paths they were found at, in the order of their discovery. -/
abbrev Log := List (String × Violation)

/-- The messages of a log. -/
def Log.messages (log : Log) : List (String × String) :=
  List.map (fun (path, v) => (path, v.message)) log

end Schemata.Validation
